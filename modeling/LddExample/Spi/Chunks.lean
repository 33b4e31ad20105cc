import LddExample.Spi.SafeWrite

/-!
# The messages of a safe write

What `spi2apb_safe_write` sends, for every sequence of replies: which chunk, where to and how often,
and what its result says about the words that the queries left in `state`.

* `lastWord`: the word in `state` at the end of a call of `_spi2apb_safe_write`; it is the word
  received when the last query was transferred.
* `safeWriteLoop_spec`: one call sends its chunk at least once and at most
  `APB_SAFE_OPERATION_TRY_MAX + 1` times, each time with a query.
* `Chunked`: the law of the whole call.
* **`safeWrite_chunked`**: every call follows it.
-/

namespace LddExample.Spi

open Bytes

/-! ## The law -/

/-- The word in `state` after these calls of `spi_sync`. -/
def wordAfter (state : List UInt8) (events : List Event) : List UInt8 :=
  events.foldl (fun state e => if e.msg = queryMessage then e.reply.fill state else state) state

/-- The word in `state` when a call of `_spi2apb_safe_write` ends. -/
def lastWord (events : List Event) : List UInt8 :=
  wordAfter (leBytes 4 0) events

/-- `k` times a write and a query. -/
def attempts (addr : BitVec 32) (data : List UInt8) (k : ℕ) : List (List Transfer) :=
  (List.replicate k [writeMessage addr data, queryMessage]).flatten

/-- **The law of chunking**, for the calls of `_spi2apb_safe_write` from call `n` of `spi_sync`
on. -/
structure Chunked (bus : ℕ → Reply) (n : ℕ) (addr : BitVec 32) (data : List UInt8) (ret : ℤ)
    (calls : List (List Event)) : Prop where
  /-- the replies are those of the bus, in order -/
  replies : calls.flatten.map Event.reply = (List.range' n calls.flatten.length).map bus
  /-- call `c` is for chunk `c` of the buffer -/
  reached : ∀ c < calls.length, apbMaxOpBytes * c < data.length
  sent : ∀ c events, calls[c]? = some events → ∃ k, 1 ≤ k ∧ k ≤ apbSafeOperationTryMax + 1 ∧
    events.map Event.msg = attempts (chunkAddr addr c) (chunk data c) k
  /-- the word that decides is the one received by the last query, if it was transferred -/
  answer : ∀ events ∈ calls, ∃ earlier asked, events = earlier ++ [⟨queryMessage, asked⟩] ∧
    (asked.ret = 0 → lastWord events = asked.received 4)
  next : ∀ c events, calls[c]? = some events → c + 1 < calls.length →
    Acknowledged (lastWord events)
  success : ret = 0 ↔ ∀ c, apbMaxOpBytes * c < data.length →
    ∃ events, calls[c]? = some events ∧ Acknowledged (lastWord events)
  failure : ret ≠ 0 → ∃ c, calls.length = c + 1 ∧
    ∀ j events, calls[j]? = some events → (Acknowledged (lastWord events) ↔ j < c)

/-! ## One chunk -/

theorem writeMessage_ne_queryMessage (addr : BitVec 32) (data : List UInt8) :
    writeMessage addr data ≠ queryMessage := by
  simp [writeMessage, queryMessage]

theorem wordAfter_attempt (bus : ℕ → Reply) (n : ℕ) (addr : BitVec 32) (data state : List UInt8)
    (events : List Event) :
    wordAfter state (attemptEvents bus n addr data ++ events) =
      wordAfter (stateAfter bus n state) events := by
  simp [wordAfter, attemptEvents, stateAfter, writeMessage_ne_queryMessage]

variable {bus : ℕ → Reply}

theorem attempt_cases (bus : ℕ → Reply) (n left : ℕ) (state : List UInt8) :
    Acknowledged (stateAfter bus n state) ∨ GivesUp bus n left state ∨
      ∃ left', left = left' + 1 ∧ HasId (stateAfter bus n state) ∧
        opState (stateAfter bus n state) ≠ 0 := by
  by_cases hid : HasId (stateAfter bus n state)
  · by_cases herr : opState (stateAfter bus n state) = 0
    · exact .inl ⟨hid, herr⟩
    · cases left with
      | zero => exact .inr (.inl (.inr ⟨rfl, herr⟩))
      | succ left => exact .inr (.inr ⟨left, rfl, hid, herr⟩)
  · exact .inr (.inl (.inl hid))

/-- **Induction over the attempts of a call**, on the retries left. -/
theorem attempt_induction (bus : ℕ → Reply) {P : ℕ → ℕ → List UInt8 → Prop}
    (ack : ∀ left n state, Acknowledged (stateAfter bus n state) → P left n state)
    (give : ∀ left n state, GivesUp bus n left state → P left n state)
    (retry : ∀ left n state, HasId (stateAfter bus n state) → opState (stateAfter bus n state) ≠ 0 →
      P left (n + 2) (stateAfter bus n state) → P (left + 1) n state) (left n : ℕ)
    (state : List UInt8) : P left n state := by
  induction left generalizing n state with
  | zero =>
    obtain hack | hgive | ⟨left', hleft, -⟩ := attempt_cases bus n 0 state
    · exact ack 0 n state hack
    · exact give 0 n state hgive
    · omega
  | succ left ih =>
    obtain hack | hgive | ⟨left', hleft, hid, herr⟩ := attempt_cases bus n (left + 1) state
    · exact ack (left + 1) n state hack
    · exact give (left + 1) n state hgive
    · exact retry left n state hid herr (ih (n + 2) (stateAfter bus n state))

theorem safeWriteLoop_givesUp_events {n left : ℕ} {state : List UInt8}
    (h : GivesUp bus n left state) (addr : BitVec 32) (data : List UInt8) :
    (safeWriteLoop bus addr data left n state).2 = attemptEvents bus n addr data := by
  rw [GivesUp, stateAfter] at h
  rw [safeWriteLoop]
  obtain hid | ⟨rfl, herr⟩ := h
  · simp [spi2apbWrite, spi2apbOperationQuery, hid, attemptEvents]
  · by_cases hid : HasId ((bus (n + 1)).fill state)
    · simp [spi2apbWrite, spi2apbOperationQuery, hid, herr, attemptEvents]
    · simp [spi2apbWrite, spi2apbOperationQuery, hid, attemptEvents]

theorem GivesUp.not_acknowledged {n left : ℕ} {state : List UInt8} (h : GivesUp bus n left state) :
    ¬Acknowledged (stateAfter bus n state) := by
  rintro ⟨hid, hzero⟩
  obtain h | ⟨-, herr⟩ := h
  · exact h hid
  · exact herr hzero

/-- What one call of `_spi2apb_safe_write` does. -/
structure SendsChunk (bus : ℕ → Reply) (n left : ℕ) (addr : BitVec 32) (data state : List UInt8)
    (ret : ℤ) (events : List Event) : Prop where
  sent : ∃ k, 1 ≤ k ∧ k ≤ left + 1 ∧ events.map Event.msg = attempts addr data k
  replies : events.map Event.reply = (List.range' n events.length).map bus
  answer : ∃ earlier asked, events = earlier ++ [⟨queryMessage, asked⟩] ∧
    (asked.ret = 0 → wordAfter state events = asked.received state.length)
  result : ret = 0 ↔ Acknowledged (wordAfter state events)

theorem SendsChunk.single {n left : ℕ} {addr : BitVec 32} {data state : List UInt8} {ret : ℤ}
    (h : ret = 0 ↔ Acknowledged (stateAfter bus n state)) :
    SendsChunk bus n left addr data state ret (attemptEvents bus n addr data) := by
  have hword : wordAfter state (attemptEvents bus n addr data) = stateAfter bus n state := by
    rw [← List.append_nil (attemptEvents bus n addr data), wordAfter_attempt]
    rfl
  refine ⟨⟨1, by omega, by omega, rfl⟩, rfl,
    ⟨[⟨writeMessage addr data, bus n⟩], bus (n + 1), rfl, fun hret => ?_⟩, ?_⟩
  · rw [hword, stateAfter, Reply.fill_of_ret hret]
  · rw [hword]
    exact h

theorem SendsChunk.repeat {n left : ℕ} {addr : BitVec 32} {data state : List UInt8} {ret : ℤ}
    {events : List Event}
    (h : SendsChunk bus (n + 2) left addr data (stateAfter bus n state) ret events) :
    SendsChunk bus n (left + 1) addr data state ret (attemptEvents bus n addr data ++ events) := by
  obtain ⟨k, hk, hle, hmsg⟩ := h.sent
  obtain ⟨earlier, asked, hevents, hword⟩ := h.answer
  refine ⟨⟨k + 1, by omega, by omega, ?_⟩, ?_, ⟨attemptEvents bus n addr data ++ earlier, asked,
    by rw [hevents, List.append_assoc], fun hret => ?_⟩, ?_⟩
  · rw [List.map_append, hmsg, attempts, attempts, List.replicate_succ, List.flatten_cons]
    rfl
  · rw [List.map_append, h.replies, List.length_append, ← List.range'_append_1, List.map_append]
    rfl
  · rw [wordAfter_attempt, hword hret, stateAfter, Reply.length_fill]
  · rw [wordAfter_attempt]
    exact h.result

/-- **One call sends its chunk again and again until it is acknowledged or the driver gives
up.** -/
theorem safeWriteLoop_spec (bus : ℕ → Reply) (addr : BitVec 32) (data : List UInt8)
    (left n : ℕ) (state : List UInt8) :
    SendsChunk bus n left addr data state (safeWriteLoop bus addr data left n state).1
      (safeWriteLoop bus addr data left n state).2 := by
  induction left, n, state using attempt_induction bus with
  | ack left n state hack =>
    rw [safeWriteLoop_acknowledged hack]
    exact .single (iff_of_true rfl hack)
  | give left n state hgive =>
    rw [safeWriteLoop_givesUp_events hgive]
    exact .single (iff_of_false (safeWriteLoop_givesUp hgive addr data) hgive.not_acknowledged)
  | retry left n state hid herr ih =>
    rw [safeWriteLoop_retry hid herr]
    exact ih.repeat

/-! ## The whole call -/

theorem chunk_drop (data : List UInt8) (c : ℕ) :
    chunk (data.drop apbMaxOpBytes) c = chunk data (c + 1) := by
  rw [chunk, chunk, List.drop_drop, Nat.mul_succ, Nat.add_comm]

theorem chunkAddr_add (addr : BitVec 32) (c : ℕ) :
    chunkAddr (addr + BitVec.ofNat 32 apbMaxOpBytes) c = chunkAddr addr (c + 1) := by
  rw [chunkAddr, chunkAddr, BitVec.add_assoc, ← BitVec.ofNat_add, Nat.mul_succ, Nat.add_comm]

theorem lt_drop_length {data : List UInt8} {c : ℕ} :
    apbMaxOpBytes * c < (data.drop apbMaxOpBytes).length ↔
      apbMaxOpBytes * (c + 1) < data.length := by
  rw [List.length_drop, Nat.mul_succ]
  omega

/-- The length of a chunk matters only to the chunks after it. -/
theorem safeWrite_rest (n : ℕ) (addr : BitVec 32) (data : List UInt8) :
    spi2apbSafeWrite bus n (addr + BitVec.ofNat 32 (min data.length apbMaxOpBytes))
        (data.drop (min data.length apbMaxOpBytes)) =
      spi2apbSafeWrite bus n (addr + BitVec.ofNat 32 apbMaxOpBytes) (data.drop apbMaxOpBytes) := by
  obtain hlt | hle := Nat.lt_or_ge apbMaxOpBytes data.length
  · rw [Nat.min_eq_right hlt.le]
  · rw [Nat.min_eq_left hle, List.drop_length, List.drop_eq_nil_of_le hle, spi2apbSafeWrite,
      spi2apbSafeWrite, if_neg (by simp), if_neg (by simp)]

theorem safeWrite_cons {data : List UInt8} (h : 0 < data.length) (n : ℕ) (addr : BitVec 32) :
    spi2apbSafeWrite bus n addr data =
      let first := safeWriteChunk bus n addr (data.take apbMaxOpBytes)
      let rest := spi2apbSafeWrite bus (n + first.2.length)
        (addr + BitVec.ofNat 32 apbMaxOpBytes) (data.drop apbMaxOpBytes)
      if first.1 ≠ 0 then (first.1, [first.2]) else (rest.1, first.2 :: rest.2) := by
  rw [spi2apbSafeWrite, if_pos h]
  dsimp only
  rw [safeWrite_rest, take_slen]

theorem chunk_zero (data : List UInt8) : chunk data 0 = data.take apbMaxOpBytes := rfl

theorem chunkAddr_zero (addr : BitVec 32) : chunkAddr addr 0 = addr := by
  rw [chunkAddr, Nat.mul_zero]
  exact BitVec.add_zero addr

section Calls

variable {n : ℕ} {addr : BitVec 32} {data : List UInt8} {ret : ℤ} {events : List Event}

theorem Chunked.nil (hdata : data = []) : Chunked bus n addr data 0 [] := by
  subst hdata
  constructor <;> simp

theorem Chunked.single (hdata : 0 < data.length) (hret : ret ≠ 0)
    (h : SendsChunk bus n apbSafeOperationTryMax addr (data.take apbMaxOpBytes) (leBytes 4 0) ret
      events) : Chunked bus n addr data ret [events] := by
  have hnot : ¬Acknowledged (lastWord events) := fun hack => hret (h.result.2 hack)
  have hget : ∀ c e, [events][c]? = some e → c = 0 ∧ e = events := by
    intro c e he
    cases c with
    | zero => exact ⟨rfl, (Option.some.inj he).symm⟩
    | succ c => simp at he
  constructor
  case replies => simpa using h.replies
  case reached =>
    intro c hc
    obtain rfl : c = 0 := by simpa using hc
    simpa using hdata
  case sent =>
    intro c e he
    obtain ⟨rfl, rfl⟩ := hget c e he
    rw [chunk_zero, chunkAddr_zero]
    exact h.sent
  case answer =>
    intro e he
    obtain rfl := List.mem_singleton.1 he
    exact h.answer
  case next =>
    intro c e he hc
    obtain ⟨rfl, rfl⟩ := hget c e he
    simp at hc
  case success =>
    refine iff_of_false hret fun hall => ?_
    obtain ⟨e, he, hack⟩ := hall 0 (by simpa using hdata)
    obtain ⟨-, rfl⟩ := hget 0 e he
    exact hnot hack
  case failure =>
    intro _
    refine ⟨0, rfl, fun j e he => ?_⟩
    obtain ⟨-, rfl⟩ := hget j e he
    exact iff_of_false hnot (Nat.not_lt_zero j)

theorem Chunked.cons {calls : List (List Event)} (hdata : 0 < data.length)
    (h : SendsChunk bus n apbSafeOperationTryMax addr (data.take apbMaxOpBytes) (leBytes 4 0) 0
      events)
    (hrest : Chunked bus (n + events.length) (addr + BitVec.ofNat 32 apbMaxOpBytes)
      (data.drop apbMaxOpBytes) ret calls) : Chunked bus n addr data ret (events :: calls) := by
  have hack : Acknowledged (lastWord events) := h.result.1 rfl
  constructor
  case replies =>
    rw [List.flatten_cons, List.map_append, h.replies, hrest.replies, List.length_append,
      ← List.range'_append_1, List.map_append]
  case reached =>
    intro c hc
    cases c with
    | zero => simpa using hdata
    | succ c => exact lt_drop_length.1 (hrest.reached c (by simpa using hc))
  case sent =>
    intro c e he
    cases c with
    | zero =>
      obtain rfl := Option.some.inj he
      rw [chunk_zero, chunkAddr_zero]
      exact h.sent
    | succ c =>
      rw [← chunk_drop, ← chunkAddr_add]
      exact hrest.sent c e he
  case answer =>
    intro e he
    obtain rfl | he := List.mem_cons.1 he
    · exact h.answer
    · exact hrest.answer e he
  case next =>
    intro c e he hc
    cases c with
    | zero =>
      obtain rfl := Option.some.inj he
      exact hack
    | succ c => exact hrest.next c e he (by simpa using hc)
  case success =>
    rw [hrest.success]
    constructor
    · intro hall c hc
      cases c with
      | zero => exact ⟨events, rfl, hack⟩
      | succ c => exact hall c (lt_drop_length.2 hc)
    · intro hall c hc
      exact hall (c + 1) (lt_drop_length.1 hc)
  case failure =>
    intro hne
    obtain ⟨c, hlen, hacks⟩ := hrest.failure hne
    refine ⟨c + 1, by rw [List.length_cons, hlen], fun j e he => ?_⟩
    cases j with
    | zero =>
      obtain rfl := Option.some.inj he
      exact iff_of_true hack (Nat.succ_pos c)
    | succ j =>
      rw [hacks j e he]
      omega

end Calls

theorem chunked_from (n : ℕ) (addr : BitVec 32) (data : List UInt8) :
    Chunked bus n addr data (spi2apbSafeWrite bus n addr data).1
      (spi2apbSafeWrite bus n addr data).2 := by
  induction hlen : data.length using Nat.strong_induction_on generalizing n addr data with
  | _ len ih =>
    obtain hzero | hpos := Nat.eq_zero_or_pos data.length
    · rw [spi2apbSafeWrite, if_neg (by omega)]
      exact .nil (List.length_eq_zero_iff.1 hzero)
    · have hfirst := safeWriteLoop_spec bus addr (data.take apbMaxOpBytes)
        apbSafeOperationTryMax n (leBytes 4 0)
      rw [safeWrite_cons hpos]
      dsimp only
      rw [safeWriteChunk]
      split_ifs with hret
      · exact .single hpos hret hfirst
      · rw [not_not.1 hret] at hfirst
        have hdrop : (data.drop apbMaxOpBytes).length < len := by
          have hmax : 0 < apbMaxOpBytes := by decide
          rw [List.length_drop]
          omega
        exact .cons hpos hfirst (ih _ hdrop _ _ _ rfl)

/-- **A safe write follows the law of chunking**, for every address, every buffer and every sequence
of replies. -/
theorem safeWrite_chunked (bus : ℕ → Reply) (addr : BitVec 32) (data : List UInt8) :
    Chunked bus 0 addr data (spi2apbSafeWrite bus 0 addr data).1
      (spi2apbSafeWrite bus 0 addr data).2 :=
  chunked_from 0 addr data

end LddExample.Spi
