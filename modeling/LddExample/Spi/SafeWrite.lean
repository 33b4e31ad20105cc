import LddExample.Spi.Model

/-!
# What a successful safe write has transferred

`_spi2apb_safe_write` looks at neither result of `spi_sync`: an attempt counts as acknowledged when
the word in `state` has the ID and no error bit, whoever put it there.

* `Attempt bus n left state c`: the attempt that begins with call `n` of `spi_sync`, its retries
  left, the word of the attempt before it and the chunk it is for.
* `resume`: the call of `spi2apb_safe_write` from an attempt on. **`Attempt.run`**: every attempt
  is one of the call.
* `Delivered`: what a result of `0` should mean.
* **`delivered_iff`**: a successful call has transferred its chunks exactly when every attempt that
  reads as acknowledged was transferred with its query.
-/

namespace LddExample.Spi

open Bytes

/-! ## What a result of 0 should mean -/

/-- The state ID and no error bit. -/
def Acknowledged (state : List UInt8) : Prop :=
  HasId state ∧ opState state = 0

instance (state : List UInt8) : Decidable (Acknowledged state) :=
  inferInstanceAs (Decidable (_ ∧ _))

/-- The last write of these calls was transferred, and so was the query after it, which has reported
the ID and no error bit. -/
def Carried (addr : BitVec 32) (data : List UInt8) (events : List Event) : Prop :=
  ∃ earlier wrote asked,
    events = earlier ++ [⟨writeMessage addr data, wrote⟩, ⟨queryMessage, asked⟩] ∧
      wrote.ret = 0 ∧ asked.ret = 0 ∧ Acknowledged (asked.received 4)

/-- Chunk `c` of a buffer. -/
def chunk (data : List UInt8) (c : ℕ) : List UInt8 :=
  (data.drop (apbMaxOpBytes * c)).take apbMaxOpBytes

/-- The address of chunk `c`. -/
def chunkAddr (addr : BitVec 32) (c : ℕ) : BitVec 32 :=
  addr + BitVec.ofNat 32 (apbMaxOpBytes * c)

/-- **Every chunk was transferred.** -/
def Delivered (addr : BitVec 32) (data : List UInt8) (calls : List (List Event)) : Prop :=
  ∀ c, apbMaxOpBytes * c < data.length →
    ∃ events, calls[c]? = some events ∧ Carried (chunkAddr addr c) (chunk data c) events

/-! ## The attempts -/

section Attempts

variable (bus : ℕ → Reply)

/-- The word in `state` after the query of an attempt. -/
def stateAfter (n : ℕ) (state : List UInt8) : List UInt8 :=
  (bus (n + 1)).fill state

/-- **An attempt**, by the call of `spi_sync` it begins with, the retries left, the word in `state`
and the chunk. -/
inductive Attempt : ℕ → ℕ → List UInt8 → ℕ → Prop
  | start : Attempt 0 apbSafeOperationTryMax (leBytes 4 0) 0
  | next {n left c : ℕ} {state : List UInt8} (h : Attempt n left state c)
      (ack : Acknowledged (stateAfter bus n state)) :
      Attempt (n + 2) apbSafeOperationTryMax (leBytes 4 0) (c + 1)
  | retry {n left c : ℕ} {state : List UInt8} (h : Attempt n (left + 1) state c)
      (id : HasId (stateAfter bus n state)) (error : opState (stateAfter bus n state) ≠ 0) :
      Attempt (n + 2) left (stateAfter bus n state) c

/-- The driver gives up after this attempt: no ID, or an error bit and no retry left. -/
def GivesUp (n left : ℕ) (state : List UInt8) : Prop :=
  ¬HasId (stateAfter bus n state) ∨ left = 0 ∧ opState (stateAfter bus n state) ≠ 0

/-- The two calls of `spi_sync` of an attempt. -/
def attemptEvents (n : ℕ) (addr : BitVec 32) (data : List UInt8) : List Event :=
  [⟨writeMessage addr data, bus n⟩, ⟨queryMessage, bus (n + 1)⟩]

/-- `spi2apb_safe_write` from an attempt for its first chunk on; `earlier` are the calls of
`spi_sync` for the chunk so far. -/
def resume (addr : BitVec 32) (data : List UInt8) (n left : ℕ) (state : List UInt8)
    (earlier : List Event) : ℤ × List (List Event) :=
  let slen := min data.length apbMaxOpBytes
  let (ret, events) := safeWriteLoop bus addr (data.take slen) left n state
  if ret ≠ 0 then (ret, [earlier ++ events])
  else
    let (ret, calls) :=
      spi2apbSafeWrite bus (n + events.length) (addr + BitVec.ofNat 32 slen) (data.drop slen)
    (ret, (earlier ++ events) :: calls)

end Attempts

variable {bus : ℕ → Reply}

/-! ## One attempt -/

theorem safeWriteLoop_acknowledged {n : ℕ} {state : List UInt8}
    (h : Acknowledged (stateAfter bus n state)) (addr : BitVec 32) (data : List UInt8) (left : ℕ) :
    safeWriteLoop bus addr data left n state = (0, attemptEvents bus n addr data) := by
  have hid : HasId ((bus (n + 1)).fill state) := h.1
  have hstate : opState ((bus (n + 1)).fill state) = 0 := h.2
  rw [safeWriteLoop]
  simp [spi2apbWrite, spi2apbOperationQuery, hid, hstate, attemptEvents]

theorem safeWriteLoop_retry {n : ℕ} {state : List UInt8} (hid : HasId (stateAfter bus n state))
    (herr : opState (stateAfter bus n state) ≠ 0) (addr : BitVec 32) (data : List UInt8)
    (left : ℕ) :
    safeWriteLoop bus addr data (left + 1) n state =
      ((safeWriteLoop bus addr data left (n + 2) (stateAfter bus n state)).1,
        attemptEvents bus n addr data ++
          (safeWriteLoop bus addr data left (n + 2) (stateAfter bus n state)).2) := by
  rw [stateAfter] at hid herr ⊢
  rw [safeWriteLoop]
  simp [spi2apbWrite, spi2apbOperationQuery, hid, herr, attemptEvents]

theorem safeWriteLoop_givesUp {n left : ℕ} {state : List UInt8} (h : GivesUp bus n left state)
    (addr : BitVec 32) (data : List UInt8) :
    (safeWriteLoop bus addr data left n state).1 ≠ 0 := by
  rw [GivesUp, stateAfter] at h
  rw [safeWriteLoop]
  obtain hid | ⟨rfl, herr⟩ := h
  · simp [spi2apbWrite, spi2apbOperationQuery, hid]
  · by_cases hid : HasId ((bus (n + 1)).fill state)
    · simp [spi2apbWrite, spi2apbOperationQuery, hid, herr]
    · simp [spi2apbWrite, spi2apbOperationQuery, hid]

theorem take_slen (data : List UInt8) :
    data.take (min data.length apbMaxOpBytes) = data.take apbMaxOpBytes := by
  rw [Nat.min_comm, ← List.take_eq_take_min]

theorem resume_acknowledged {n : ℕ} {state : List UInt8}
    (h : Acknowledged (stateAfter bus n state)) (addr : BitVec 32) (data : List UInt8) (left : ℕ)
    (earlier : List Event) :
    resume bus addr data n left state earlier =
      let slen := min data.length apbMaxOpBytes
      let rest := spi2apbSafeWrite bus (n + 2) (addr + BitVec.ofNat 32 slen) (data.drop slen)
      (rest.1, (earlier ++ attemptEvents bus n addr (data.take apbMaxOpBytes)) :: rest.2) := by
  rw [resume, take_slen, safeWriteLoop_acknowledged h]
  rfl

theorem resume_retry {n : ℕ} {state : List UInt8} (hid : HasId (stateAfter bus n state))
    (herr : opState (stateAfter bus n state) ≠ 0) (addr : BitVec 32) (data : List UInt8)
    (left : ℕ) (earlier : List Event) :
    resume bus addr data n (left + 1) state earlier =
      resume bus addr data (n + 2) left (stateAfter bus n state)
        (earlier ++ attemptEvents bus n addr (data.take apbMaxOpBytes)) := by
  rw [resume, resume, take_slen, safeWriteLoop_retry hid herr]
  simp [attemptEvents, Nat.add_assoc, Nat.add_comm 2]

theorem resume_givesUp {n left : ℕ} {state : List UInt8} (h : GivesUp bus n left state)
    (addr : BitVec 32) (data : List UInt8) (earlier : List Event) :
    (resume bus addr data n left state earlier).1 ≠ 0 := by
  have hret := safeWriteLoop_givesUp h addr (data.take (min data.length apbMaxOpBytes))
  rw [resume]
  simp [hret]

theorem safeWrite_eq_resume {data : List UInt8} (h : 0 < data.length) (n : ℕ)
    (addr : BitVec 32) :
    spi2apbSafeWrite bus n addr data =
      resume bus addr data n apbSafeOperationTryMax (leBytes 4 0) [] := by
  rw [spi2apbSafeWrite, if_pos h, resume]
  rfl

/-! ## The attempts of a call -/

theorem chunkAddr_succ (addr : BitVec 32) (c : ℕ) :
    chunkAddr addr c + BitVec.ofNat 32 apbMaxOpBytes = chunkAddr addr (c + 1) := by
  rw [chunkAddr, chunkAddr, BitVec.add_assoc, ← BitVec.ofNat_add, Nat.mul_succ]

/-- **Every attempt for a chunk of the buffer is one of the call.** The chunks before it have a call
of `_spi2apb_safe_write` each. -/
theorem Attempt.run {n left c : ℕ} {state : List UInt8} (h : Attempt bus n left state c)
    (addr : BitVec 32) (data : List UInt8) (hc : apbMaxOpBytes * c < data.length) :
    ∃ calls earlier, calls.length = c ∧
      spi2apbSafeWrite bus 0 addr data =
        let rest := resume bus (chunkAddr addr c) (data.drop (apbMaxOpBytes * c)) n left state
          earlier
        (rest.1, calls ++ rest.2) := by
  induction h with
  | start =>
    refine ⟨[], [], rfl, ?_⟩
    rw [safeWrite_eq_resume (by omega), chunkAddr, Nat.mul_zero, List.drop_zero]
    simp
  | @next n left c state h ack ih =>
    rw [Nat.mul_succ] at hc
    obtain ⟨calls, earlier, hlen, hrun⟩ := ih (by omega)
    rw [resume_acknowledged ack] at hrun
    have hslen : min (data.drop (apbMaxOpBytes * c)).length apbMaxOpBytes = apbMaxOpBytes := by
      rw [List.length_drop]
      omega
    have hpos : 0 < (data.drop (apbMaxOpBytes * (c + 1))).length := by
      rw [List.length_drop, Nat.mul_succ]
      omega
    dsimp only at hrun
    rw [hslen, List.drop_drop, ← Nat.mul_succ, chunkAddr_succ, safeWrite_eq_resume hpos] at hrun
    refine ⟨calls ++ [earlier ++ attemptEvents bus n (chunkAddr addr c) (chunk data c)], [], ?_, ?_⟩
    · rw [List.length_append, hlen]
      rfl
    · dsimp only
      rw [hrun, List.append_assoc]
      rfl
  | retry h id error ih =>
    obtain ⟨calls, earlier, hlen, hrun⟩ := ih hc
    rw [resume_retry id error] at hrun
    exact ⟨calls, _, hlen, hrun⟩

theorem Attempt.length_state {n left c : ℕ} {state : List UInt8} (h : Attempt bus n left state c) :
    state.length = 4 := by
  induction h with
  | start => exact length_leBytes 4 0
  | next => exact length_leBytes 4 0
  | retry _ _ _ ih => rw [stateAfter, Reply.length_fill, ih]

theorem Attempt.getElem?_calls {n left c : ℕ} {state : List UInt8} (h : Attempt bus n left state c)
    (ack : Acknowledged (stateAfter bus n state)) (addr : BitVec 32) (data : List UInt8)
    (hc : apbMaxOpBytes * c < data.length) :
    ∃ earlier, (spi2apbSafeWrite bus 0 addr data).2[c]? =
      some (earlier ++ attemptEvents bus n (chunkAddr addr c) (chunk data c)) := by
  obtain ⟨calls, earlier, hlen, hrun⟩ := h.run addr data hc
  refine ⟨earlier, ?_⟩
  rw [hrun, resume_acknowledged ack, List.getElem?_append_right (by omega), hlen, Nat.sub_self]
  rfl

theorem Attempt.not_givesUp {n left c : ℕ} {state : List UInt8} (h : Attempt bus n left state c)
    {addr : BitVec 32} {data : List UInt8} (hc : apbMaxOpBytes * c < data.length)
    (hret : (spi2apbSafeWrite bus 0 addr data).1 = 0) : ¬GivesUp bus n left state := by
  intro hgive
  obtain ⟨calls, earlier, -, hrun⟩ := h.run addr data hc
  rw [hrun] at hret
  exact resume_givesUp hgive _ _ _ hret

/-- Without giving up, the attempts for a chunk end in an acknowledged one. The retries left bound
their number. -/
theorem Attempt.exists_acknowledged {c : ℕ}
    (hgive : ∀ n left state, Attempt bus n left state c → ¬GivesUp bus n left state) {n left : ℕ}
    {state : List UInt8} (h : Attempt bus n left state c) :
    ∃ n left state, Attempt bus n left state c ∧ Acknowledged (stateAfter bus n state) := by
  induction left generalizing n state with
  | zero =>
    obtain ⟨hid, hzero⟩ := not_or.1 (hgive _ _ _ h)
    exact ⟨n, 0, state, h, not_not.1 hid, not_not.1 fun herr => hzero ⟨rfl, herr⟩⟩
  | succ left ih =>
    obtain ⟨hid, -⟩ := not_or.1 (hgive _ _ _ h)
    by_cases herr : opState (stateAfter bus n state) = 0
    · exact ⟨n, left + 1, state, h, not_not.1 hid, herr⟩
    · exact ih (h.retry (not_not.1 hid) herr)

/-- No attempt for the buffer makes the driver give up. -/
def NeverGivesUp (bus : ℕ → Reply) (data : List UInt8) : Prop :=
  ∀ n left state c, Attempt bus n left state c → apbMaxOpBytes * c < data.length →
    ¬GivesUp bus n left state

/-- **Every chunk has an acknowledged attempt.** -/
theorem NeverGivesUp.exists_acknowledged {data : List UInt8} (h : NeverGivesUp bus data) (c : ℕ)
    (hc : apbMaxOpBytes * c < data.length) :
    ∃ n left state, Attempt bus n left state c ∧ Acknowledged (stateAfter bus n state) := by
  induction c with
  | zero =>
    exact Attempt.exists_acknowledged (fun n left state hat => h n left state 0 hat hc) .start
  | succ c ih =>
    obtain ⟨n, left, state, hat, hack⟩ := ih (by rw [Nat.mul_succ] at hc; omega)
    exact Attempt.exists_acknowledged (fun n left state hat => h n left state (c + 1) hat hc)
      (hat.next hack)

/-- **The result is 0 exactly when the driver does not give up.** -/
theorem ret_eq_zero_iff (bus : ℕ → Reply) (addr : BitVec 32) (data : List UInt8) :
    (spi2apbSafeWrite bus 0 addr data).1 = 0 ↔ NeverGivesUp bus data := by
  constructor
  · intro hret n left state c hat hc
    exact hat.not_givesUp hc hret
  · intro h
    obtain hzero | hpos := Nat.eq_zero_or_pos data.length
    · rw [spi2apbSafeWrite, if_neg (by omega)]
    · -- the attempt that acknowledges the last chunk
      have hmax : 0 < apbMaxOpBytes := by decide
      have hlast := Nat.div_add_mod (data.length - 1) apbMaxOpBytes
      have hmod := Nat.mod_lt (data.length - 1) hmax
      have hc : apbMaxOpBytes * ((data.length - 1) / apbMaxOpBytes) < data.length := by omega
      obtain ⟨n, left, state, hat, hack⟩ := h.exists_acknowledged _ hc
      obtain ⟨calls, earlier, -, hrun⟩ := hat.run addr data hc
      rw [hrun, resume_acknowledged hack]
      dsimp only
      rw [spi2apbSafeWrite, if_neg]
      rw [List.length_drop, List.length_drop]
      omega

/-! ## The result -/

theorem Attempt.carried_iff {n left c : ℕ} {state : List UInt8} (h : Attempt bus n left state c)
    (ack : Acknowledged (stateAfter bus n state)) (addr : BitVec 32) (data : List UInt8)
    (earlier : List Event) :
    Carried addr data (earlier ++ attemptEvents bus n addr data) ↔
      (bus n).ret = 0 ∧ (bus (n + 1)).ret = 0 := by
  constructor
  · rintro ⟨earlier', wrote, asked, heq, hwrote, hasked, -⟩
    obtain ⟨-, hpair⟩ := List.append_inj' heq rfl
    cases hpair
    exact ⟨hwrote, hasked⟩
  · rintro ⟨hwrote, hasked⟩
    refine ⟨earlier, bus n, bus (n + 1), rfl, hwrote, hasked, ?_⟩
    rwa [stateAfter, Reply.fill_of_ret hasked, h.length_state] at ack

/-- The calls of `spi_sync` behind every acknowledged word were transferred: in each attempt for a
chunk of the buffer, if the word in `state` then has the ID and no error bit. -/
def TrueAcks (bus : ℕ → Reply) (data : List UInt8) : Prop :=
  ∀ n left state c, Attempt bus n left state c → apbMaxOpBytes * c < data.length →
    Acknowledged (stateAfter bus n state) → (bus n).ret = 0 ∧ (bus (n + 1)).ret = 0

theorem delivered_iff_trueAcks {data : List UInt8} (h : NeverGivesUp bus data) (addr : BitVec 32) :
    Delivered addr data (spi2apbSafeWrite bus 0 addr data).2 ↔ TrueAcks bus data := by
  constructor
  · intro hdel n left state c hat hc hack
    obtain ⟨events, hevents, hcarried⟩ := hdel c hc
    obtain ⟨earlier, hcall⟩ := hat.getElem?_calls hack addr data hc
    obtain rfl := Option.some.inj (hevents.symm.trans hcall)
    exact (hat.carried_iff hack _ _ _).1 hcarried
  · intro htrue c hc
    obtain ⟨n, left, state, hat, hack⟩ := h.exists_acknowledged c hc
    obtain ⟨earlier, hcall⟩ := hat.getElem?_calls hack addr data hc
    exact ⟨_, hcall, (hat.carried_iff hack _ _ _).2 (htrue n left state c hat hc hack)⟩

/-- **A result of 0 means that every chunk was transferred exactly when the driver gives up on one,
or no acknowledged word stands behind a failed call of `spi_sync`.** -/
theorem delivered_iff (bus : ℕ → Reply) (addr : BitVec 32) (data : List UInt8) :
    ((spi2apbSafeWrite bus 0 addr data).1 = 0 →
      Delivered addr data (spi2apbSafeWrite bus 0 addr data).2) ↔
    (∃ n left state c, Attempt bus n left state c ∧ apbMaxOpBytes * c < data.length ∧
      GivesUp bus n left state) ∨ TrueAcks bus data := by
  rw [ret_eq_zero_iff]
  by_cases h : NeverGivesUp bus data
  · rw [delivered_iff_trueAcks h]
    constructor
    · intro htrue
      exact .inr (htrue h)
    · rintro (⟨n, left, state, c, hat, hc, hgive⟩ | htrue) -
      · exact absurd hgive (h n left state c hat hc)
      · exact htrue
  · refine iff_of_true (fun hnever => absurd hnever h) (.inl ?_)
    rw [NeverGivesUp] at h
    push Not at h
    exact h

/-- The write fails, and the device answers the query with the state of the operation before. -/
def deadBus (n : ℕ) : Reply :=
  if n = 0 then ⟨-110, fun _ => 0, 0⟩ else ⟨0, fun i => [0x00, 0x00, 0x08, 0x16].getD i 0, 4⟩

theorem deadBus_not_delivered :
    (spi2apbSafeWrite deadBus 0 0 [7]).1 = 0 ∧
      ¬Delivered 0 [7] (spi2apbSafeWrite deadBus 0 0 [7]).2 := by
  have hack : Acknowledged (stateAfter deadBus 0 (leBytes 4 0)) := by decide
  have hc : apbMaxOpBytes * 0 < [(7 : UInt8)].length := by decide
  constructor
  · rw [safeWrite_eq_resume (by decide), resume_acknowledged hack]
    dsimp only
    rw [spi2apbSafeWrite, if_neg (by decide)]
  · intro hdel
    obtain ⟨events, hevents, hcarried⟩ := hdel 0 hc
    obtain ⟨earlier, hcall⟩ := Attempt.start.getElem?_calls hack 0 [7] hc
    obtain rfl := Option.some.inj (hevents.symm.trans hcall)
    obtain ⟨hwrote, -⟩ := (Attempt.start.carried_iff hack _ _ _).1 hcarried
    exact absurd hwrote (by decide)

end LddExample.Spi
