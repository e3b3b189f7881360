import Ajp13.Decoder.Turn

/-!
The headers of a forward request.

* `State.takeName`: the name of the next header, or the one that came before;
* `headerTurn`: one header, of which `headerValueTurn` reads the value;
* `readHeaders`: all headers that were announced.
-/

namespace Ajp13.Decoder

/-- The header to wait for after a name has come. -/
def pending (name : ReceivedString) : PendingHeader :=
  match name.headerName? with
  | some name => .named name
  | none => .rejected

/-- The header that is complete when its value has come; it is dropped if its name or its value is
none. -/
def headerField? : PendingHeader → ReceivedString → Option Field
  | .named name, value => value.headerValue?.map (.header name)
  | .rejected, _ => none

/-- Reads a header name, unless one is waiting for its value. Neither is kept. -/
def State.takeName (s : State) (buffer : List UInt8) :
    Reading State (Except Fault (Option PendingHeader)) :=
  match s.pendingHeader with
  | some header => ⟨.ok (some header), { s with pendingHeader := none }, buffer⟩
  | none =>
      let r := s.readString .headerName buffer
      ⟨r.value.map (Option.map pending), r.kept, r.rest⟩

theorem State.headersRead_kept_takeName (s : State) (buffer : List UInt8) :
    (s.takeName buffer).kept.headersRead = s.headersRead := by
  rw [takeName]
  split <;> rfl

theorem State.headerCount_kept_takeName (s : State) (buffer : List UInt8) :
    (s.takeName buffer).kept.headerCount = s.headerCount := by
  rw [takeName]
  split <;> rfl

variable {σ : Type}

/-- Reads the value of a header. The header counts even if it is dropped, and its name is kept
while its value is not complete. -/
def headerValueTurn (put : σ → Field → σ) (acc : σ) (header : PendingHeader) (s : State)
    (buffer : List UInt8) : Turn σ :=
  let r := s.readString .plain buffer
  match r.value with
  | .ok (some value) =>
      .go { r.kept with headersRead := s.headersRead + 1 }
        ((headerField? header value).elim acc (put acc)) r.rest
  | .ok none => .stop ⟨.suspended, r.rest, { r.kept with pendingHeader := some header }, acc⟩
  | .error fault => .stop ⟨.failed fault, r.rest, r.kept, acc⟩

/-- Reads a header if one is missing. -/
def headerTurn (put : σ → Field → σ) (s : State) (acc : σ) (buffer : List UInt8) : Turn σ :=
  if s.headersRead < s.headerCount.toNat then
    (s.takeName buffer).turn acc (headerValueTurn put acc)
  else .stop ⟨.done, buffer, s, acc⟩

/-- With each header that is complete, one less is missing. -/
theorem missing_lt_of_headerTurn_eq_go {put : σ → Field → σ} {s s' : State} {acc acc' : σ}
    {buffer rest : List UInt8} (h : headerTurn put s acc buffer = .go s' acc' rest) :
    s'.headerCount.toNat - s'.headersRead < s.headerCount.toNat - s.headersRead := by
  rw [headerTurn] at h
  split at h
  next hlt =>
    obtain ⟨header, -, h⟩ := Reading.turn_eq_go h
    have hread := s.headersRead_kept_takeName buffer
    have hcount := s.headerCount_kept_takeName buffer
    rw [headerValueTurn] at h
    split at h
    next value hvalue =>
      injection h with hs
      rw [← hs]
      dsimp only [State.readString, State.withString]
      rw [hread, hcount]
      omega
    next => cases h
    next => cases h
  next => cases h

/-- Reads the headers that are missing. -/
def readHeaders (put : σ → Field → σ) : State → σ → List UInt8 → Run σ :=
  loop (headerTurn put) (fun s _ => s.headerCount.toNat - s.headersRead)
    missing_lt_of_headerTurn_eq_go

end Ajp13.Decoder
