import Mathlib.Data.List.Induction
import RemoteInput.Connection.Stream

/-!
# A connection sends nothing

What a connection has done to its stream follows from how far it has come (`Live.Mute`): nothing
while it reads, and one shutdown once the stream has ended.  Whatever arrives next keeps this
(`Mute.next`), so it holds after any arrivals at all, those of a stream that never ends among them
(`mute_after`).  So no connection ever sends anything to its peer (`sent_after`).

If a stream brings chunks, its end and what came of its shutdown, the connection on it is the one
that `run` handles as a whole (`after_ended`).
-/

namespace RemoteInput.Connection

variable {σ : Type}

namespace Live

/-- Whether a connection did nothing to its stream but shut it down when it had ended. -/
def Mute (c : Live σ) : Prop :=
  match c.phase with
  | .reading _ => c.acts = []
  | _ => c.acts = [.shutdown]

/-! ## Any arrivals -/

theorem Mute.next {c : Live σ} (h : c.Mute) (ctx : Context σ) (arrival : Arrival) :
    (c.next ctx arrival).Mute := by
  obtain ⟨backend, phase, trace, acts⟩ := c
  cases phase with
  | reading state =>
      obtain rfl : acts = [] := h
      cases arrival with
      | data chunk => rfl
      | ended ending => cases ending <;> rfl
      | shutDown result => rfl
  | leaving summary =>
      obtain rfl : acts = [.shutdown] := h
      cases arrival <;> rfl
  | finished summary => exact h

/-- Whatever its stream brings, a connection does nothing to it but shut it down in the end. -/
theorem mute_after (ctx : Context σ) (backend : σ) (arrivals : List Arrival) :
    (after ctx backend arrivals).Mute := by
  induction arrivals using List.reverseRecOn with
  | nil => rfl
  | append_singleton arrivals arrival ih =>
      rw [after, List.foldl_append]
      exact ih.next ctx arrival

/-- Whatever its stream brings, a connection sends nothing. -/
theorem sent_after (ctx : Context σ) (backend : σ) (arrivals : List Arrival) :
    (after ctx backend arrivals).acts.flatMap Act.sent = [] := by
  have hmute := mute_after ctx backend arrivals
  unfold Mute at hmute
  split at hmute <;> rw [hmute] <;> rfl

/-! ## A stream that brings chunks -/

theorem next_data (ctx : Context σ) (backend : σ) (state : State) (trace : Trace)
    (acts : List Act) (chunk : Bytes) :
    next ctx ⟨backend, .reading state, trace, acts⟩ (.data chunk) =
      let p := receive ctx backend state chunk
      ⟨p.backend, .reading p.state, trace ++ p.trace, acts⟩ := rfl

/-- The end of a stream and its shutdown bring a connection that was reading to its summary. -/
theorem next_ended (ctx : Context σ) (backend : σ) (state : State) (trace : Trace)
    (acts : List Act) (ending : StreamEnd) (shutdown : Except IoError Unit) :
    next ctx (next ctx ⟨backend, .reading state, trace, acts⟩ (.ended ending))
        (.shutDown shutdown) =
      let r := finish ctx backend state ending shutdown
      ⟨r.1, .finished r.2.1, trace ++ r.2.2, acts ++ [.shutdown]⟩ := by
  cases ending with
  | closed => simp [next, finish, Trace.append_assoc]
  | failed e => simp [next, finish]

/-- Chunks that arrive one by one do what they do together. -/
theorem foldl_data (ctx : Context σ) (backend : σ) (state : State) (trace : Trace)
    (acts : List Act) (chunks : List Bytes) :
    (chunks.map .data).foldl (next ctx) ⟨backend, .reading state, trace, acts⟩ =
      let p := receiveAll ctx backend state chunks
      ⟨p.backend, .reading p.state, trace ++ p.trace, acts⟩ := by
  induction chunks generalizing backend state trace with
  | nil => simp [receiveAll]
  | cons chunk chunks ih =>
      rw [List.map_cons, List.foldl_cons, next_data, ih]
      simp only [receiveAll, Progress.andThen, Trace.append_assoc]

/-- A stream that brings chunks, then ends and is shut down makes a connection do what it does when
it is handled as a whole. -/
theorem after_ended (ctx : Context σ) (backend : σ) (chunks : List Bytes) (ending : StreamEnd)
    (shutdown : Except IoError Unit) :
    after ctx backend (chunks.map .data ++ [.ended ending, .shutDown shutdown]) =
      let r := run ctx backend chunks ending shutdown
      ⟨r.1, .finished r.2.1, r.2.2, [.shutdown]⟩ := by
  rw [after, List.foldl_append, foldl_data]
  dsimp only
  rw [List.foldl_cons, List.foldl_cons, List.foldl_nil, next_ended, Trace.empty_append]
  rfl

end Live

end RemoteInput.Connection
