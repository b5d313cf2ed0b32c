import FrameQuery.Frame.Pure
import FrameQuery.Text.Utf8

/-!
# Executing frames

A frame is executed by handing its compact PURE text to the service it was given. The service answers
in chunks of bytes, which go to a handler one after the other; a failure of the handler ends the
execution. What the handler has gathered up to a failure is kept.
-/

namespace FrameQuery

/-- A computation that works on a state and may fail; the state outlives a failure. -/
abbrev Run (σ α : Type) := ExceptT Error (StateM σ) α

/-- What takes the chunks of an answer. -/
abbrev Sink (σ : Type) := List UInt8 → Run σ Unit

/-- What a service answers: chunks of bytes, and the failure it ends with, if any. -/
structure ServiceAnswer where
  chunks : List (List UInt8)
  failure : Option Error := none

/-- What executes queries, given the text of a query and the size of a chunk. -/
structure Service where
  answer : String → Nat → ServiceAnswer

namespace Service

/-- The bytes in chunks of a size, the last one perhaps shorter; `fuel` bounds their number. -/
def chunks (size : Nat) : Nat → List UInt8 → List (List UInt8)
  | 0, _ => []
  | fuel + 1, bytes =>
    if bytes.isEmpty then [] else bytes.take size :: chunks size fuel (bytes.drop size)

/-- The service that gives the same answer to every query. Chunks have at least one byte. -/
def answering (response : List UInt8) (failure : Option Error) : Service where
  answer _ size := ⟨chunks (max size 1) response.length response, failure⟩

end Service

namespace ServiceAnswer

/-- Hands chunks to a sink, one after the other. -/
def deliverChunks {σ : Type} (sink : Sink σ) : List (List UInt8) → Run σ Unit
  | [] => pure ()
  | chunk :: rest => do
    sink chunk
    deliverChunks sink rest

/-- Hands an answer to a sink, and fails in the end if the service does. -/
def deliver {σ : Type} (answer : ServiceAnswer) (sink : Sink σ) : Run σ Unit := do
  deliverChunks sink answer.chunks
  match answer.failure with
  | some error => throw error
  | none => pure ()

end ServiceAnswer

namespace Frame

/-- The text a service is handed. -/
def executedText (frame : Frame) : String := frame.pureText .compact

/-- The size of chunks if none is asked for. -/
def defaultChunkSize : Nat := 1024

/-- Executes a frame. -/
def execute {σ : Type} (frame : Frame) (services : ServiceId → Option Service) (handler : Sink σ)
    (chunkSize : Option Nat) : Run σ Unit :=
  match frame.service?.bind services with
  | none => throw
      { cause := .withoutService
        hints := ["install one with \x60TdsFrame::with_execution_service\x60"] }
  | some service =>
    (service.answer frame.executedText (chunkSize.getD defaultChunkSize)).deliver handler

/-- Executes a frame and gathers the answer as a text. -/
def executeToString (frame : Frame) (services : ServiceId → Option Service)
    (chunkSize : Option Nat) : Outcome String :=
  let gather : Sink (List UInt8) := fun chunk ↦ modify (· ++ chunk)
  match (frame.execute services gather chunkSize).run [] with
  | (.error e, _) => .error e
  | (.ok (), bytes) =>
    match Utf8.decode bytes with
    | .ok text => .ok text
    | .error fault => fail (.resultText fault.message)

end Frame

end FrameQuery
