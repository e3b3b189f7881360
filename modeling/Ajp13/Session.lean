import Ajp13.Decoder.Run

/-!
A decoder at work on a stream that comes in pieces.

* `Session`: a decoder's state, its sink's state, and the bytes not taken yet;
* `Session.feed`: one more piece;
* `Session.reset`, `Session.discard`, `Session.renew`: start over with one of the three.
-/

namespace Ajp13

open Decoder

/-- A decoder at work. -/
structure Session (σ : Type) where
  conf : Conf
  sink : Sink σ
  /-- What the sink has been told so far. -/
  told : σ
  state : State := .start
  /-- The bytes that have come and have not been taken. -/
  buffer : List UInt8 := []

namespace Session

variable {σ : Type}

/-- Adds a piece of the stream to the buffer and takes what it can. -/
def feed (s : Session σ) (piece : List UInt8) : Outcome × Session σ :=
  let r := parse s.conf s.sink s.state s.told (s.buffer ++ piece)
  (r.outcome, { s with told := r.result, state := r.state, buffer := r.rest })

/-- Waits for a new packet. -/
def reset (s : Session σ) : Session σ := { s with state := s.state.reset }

/-- Drops the bytes that have not been taken. -/
def discard (s : Session σ) : Session σ := { s with buffer := [] }

/-- Has the sink start with the given state. -/
def renew (s : Session σ) (told : σ) : Session σ := { s with told }

/-- Has URLs treated in another way from now on. -/
def reconfigure (s : Session σ) (conf : Conf) : Session σ := { s with conf }

end Session

end Ajp13
