import LddExample.Spi.Chunks

/-!
# Reading back what was written

`spi2apb_read` asks the device for a number of words and clocks `data_len` bytes into the buffer.

* `askedBytes_eq`: it asks for `min data_len APB_MAX_OP_BYTES` bytes, rounded down to words.
* `Serves`: what the device does on a bus without failed transfers. An acknowledged write is in the
  memory, an acknowledged read has delivered the words that were asked for; what is on the line
  behind them is anything.
* `ReadAgrees`: a read of this length asks for what it takes, and reads back what was written.
* **`readAgrees_iff`**: exactly the multiples of 4 up to `APB_MAX_OP_BYTES`.
-/

namespace LddExample.Spi

open Bytes

/-! ## The device -/

/-- The memory behind the bridge. -/
abbrev Mem := BitVec 32 → UInt8

/-- The memory after a write of `data` at `addr`. -/
def store (mem : Mem) (addr : BitVec 32) (data : List UInt8) : Mem :=
  fun a => (data[(a - addr).toNat]?).getD (mem a)

/-- The bytes that a read command asks for: the word count is in bits 31 to 16. -/
def askedOf (cmd : ℕ) : ℕ :=
  4 * (cmd >>> 16)

/-- What the device does with a message; `ok` says that its status word acknowledges it. -/
def Performs (mem : Mem) (op : Event) (ok : Prop) (mem' : Mem) : Prop :=
  match op.msg with
  | [.tx _, .tx a, .tx data] => ok → mem' = store mem (BitVec.ofNat 32 (leVal a)) data
  | [.tx cmd, .tx a, .tx _, .tx _, .rx _] =>
    mem' = mem ∧ (ok → ∀ i < askedOf (leVal cmd),
      op.reply.miso i = mem (BitVec.ofNat 32 (leVal a) + BitVec.ofNat 32 i))
  | _ => mem' = mem

/-- The replies to these messages are those of the device, with nothing lost on the bus. -/
def Serves : Mem → List Event → Mem → Prop
  | mem, [], mem' => mem' = mem
  | mem, op :: query :: events, mem' =>
    op.reply.ret = 0 ∧ query.reply.ret = 0 ∧
      ∃ mem₁, Performs mem op (Acknowledged (query.reply.received 4)) mem₁ ∧ Serves mem₁ events mem'
  | _, [_], _ => False

/-- The bytes at `addr`. -/
def Mem.bytes (mem : Mem) (addr : BitVec 32) (len : ℕ) : List UInt8 :=
  (List.range len).map fun i => mem (addr + BitVec.ofNat 32 i)

/-- **Reads of this length agree with writes.** -/
structure ReadAgrees (len : ℕ) : Prop where
  /-- the command asks for what the data packet takes -/
  asked : len ≤ askedOf (readCmd len)
  /-- every byte of a successful read is APB data -/
  apb : ∀ bus n addr buf mem mem', buf.length = len → (spi2apbSafeRead bus n addr buf).1 = 0 →
    Serves mem (spi2apbSafeRead bus n addr buf).2.2 mem' →
      (spi2apbSafeRead bus n addr buf).2.1 = mem.bytes addr len
  /-- and is what a successful write has stored -/
  readBack : ∀ bus n m addr data buf mem mem₁ mem₂, data.length = len → buf.length = len →
    (spi2apbSafeWrite bus n addr data).1 = 0 →
    Serves mem (spi2apbSafeWrite bus n addr data).2.flatten mem₁ →
    (spi2apbSafeRead bus m addr buf).1 = 0 →
    Serves mem₁ (spi2apbSafeRead bus m addr buf).2.2 mem₂ →
      (spi2apbSafeRead bus m addr buf).2.1 = data

/-! ## The read command -/

theorem askedOf_readCmd (len : ℕ) : askedOf (readCmd len) = 4 * (min len apbMaxOpBytes / 4) := by
  have hmax : apbMaxOpBytes = 60000 := rfl
  have hcmd : apbCmdRead >>> 16 = 0 := rfl
  have hmask : 0xffff0000 >>> 16 = 2 ^ 16 - 1 := rfl
  rw [askedOf, readCmd, Nat.shiftRight_or_distrib, hcmd, Nat.zero_or, Nat.shiftRight_and_distrib,
    hmask, Nat.and_two_pow_sub_one_eq_mod, Nat.shiftRight_eq_div_pow, Nat.shiftLeft_eq]
  omega

theorem readCmd_lt (len : ℕ) : readCmd len < 2 ^ 32 := by
  rw [readCmd]
  refine Nat.or_lt_two_pow (by decide) ?_
  exact lt_of_le_of_lt Nat.and_le_right (by decide)

/-! ## The memory -/

theorem addrOf_leBytes (addr : BitVec 32) :
    BitVec.ofNat 32 (leVal (leBytes 4 addr.toNat)) = addr := by
  rw [leVal_leBytes_of_lt addr.isLt]
  exact BitVec.ofNat_toNat 32 addr

theorem length_bytes (mem : Mem) (addr : BitVec 32) (len : ℕ) :
    (mem.bytes addr len).length = len := by
  simp [Mem.bytes]

theorem bytes_store (mem : Mem) (addr : BitVec 32) {data : List UInt8}
    (h : data.length ≤ 2 ^ 32) : (store mem addr data).bytes addr data.length = data := by
  refine List.ext_getElem (length_bytes _ _ _) fun i hi hi' => ?_
  have hoff : (addr + BitVec.ofNat 32 i - addr).toNat = i := by
    rw [BitVec.add_comm, BitVec.add_sub_cancel, BitVec.toNat_ofNat]
    omega
  simp only [Mem.bytes, List.getElem_map, List.getElem_range]
  rw [store, hoff, List.getElem?_eq_getElem hi']
  rfl

section Attempt

variable {bus : ℕ → Reply} {n left : ℕ} {addr : BitVec 32} {mem mem' : Mem}
  {data state : List UInt8} {events : List Event}

theorem stateAfter_of_ret (hret : (bus (n + 1)).ret = 0) (hstate : state.length = 4) :
    stateAfter bus n state = (bus (n + 1)).received 4 := by
  rw [stateAfter, Reply.fill_of_ret hret, hstate]

theorem length_stateAfter (hstate : state.length = 4) : (stateAfter bus n state).length = 4 := by
  rw [stateAfter, Reply.length_fill, hstate]

theorem serves_write (h : Serves mem (attemptEvents bus n addr data ++ events) mem')
    (hstate : state.length = 4) :
    ∃ mem₁, (Acknowledged (stateAfter bus n state) → mem₁ = store mem addr data) ∧
      Serves mem₁ events mem' := by
  obtain ⟨-, hret, mem₁, hperf, hserves⟩ := h
  refine ⟨mem₁, fun hack => ?_, hserves⟩
  rw [stateAfter_of_ret hret hstate] at hack
  have hmem := hperf hack
  rwa [addrOf_leBytes] at hmem

/-- **A successful write is in the memory.** -/
theorem safeWriteLoop_stores (hstate : state.length = 4)
    (hret : (safeWriteLoop bus addr data left n state).1 = 0)
    (h : Serves mem (safeWriteLoop bus addr data left n state).2 mem') :
    ∃ mem₀, mem' = store mem₀ addr data := by
  induction left, n, state using attempt_induction bus generalizing mem with
  | ack left n state hack =>
    rw [safeWriteLoop_acknowledged hack, ← List.append_nil (attemptEvents bus n addr data)] at h
    obtain ⟨mem₁, hmem, hserves⟩ := serves_write h hstate
    exact ⟨mem, hserves.trans (hmem hack)⟩
  | give left n state hgive => exact absurd hret (safeWriteLoop_givesUp hgive addr data)
  | retry left n state hid herr ih =>
    rw [safeWriteLoop_retry hid herr] at h hret
    obtain ⟨mem₁, -, hserves⟩ := serves_write h hstate
    exact ih (length_stateAfter hstate) hret hserves

theorem safeWrite_stores (hmax : data.length ≤ apbMaxOpBytes) (hpos : 0 < data.length)
    (hret : (spi2apbSafeWrite bus n addr data).1 = 0)
    (h : Serves mem (spi2apbSafeWrite bus n addr data).2.flatten mem') :
    ∃ mem₀, mem' = store mem₀ addr data := by
  have hrest : ∀ m a, spi2apbSafeWrite bus m a (data.drop apbMaxOpBytes) = (0, []) := by
    intro m a
    rw [List.drop_eq_nil_of_le hmax, spi2apbSafeWrite, if_neg (by simp)]
  rw [safeWrite_cons hpos] at hret h
  dsimp only at hret h
  rw [hrest, List.take_of_length_le hmax, safeWriteChunk] at hret h
  split_ifs at hret h with hfirst
  · exact absurd hret hfirst
  · rw [List.flatten_cons, List.flatten_nil, List.append_nil] at h
    exact safeWriteLoop_stores (length_leBytes 4 0) (not_not.1 hfirst) h

/-! ## The read -/

/-- The two calls of `spi_sync` of an attempt. -/
def readEvents (bus : ℕ → Reply) (n : ℕ) (addr : BitVec 32) (len : ℕ) : List Event :=
  [⟨readMessage addr len, bus n⟩, ⟨queryMessage, bus (n + 1)⟩]

theorem safeReadLoop_acknowledged (h : Acknowledged (stateAfter bus n state)) :
    safeReadLoop bus addr left n data state =
      (0, (bus n).fill data, readEvents bus n addr data.length) := by
  have hid : HasId ((bus (n + 1)).fill state) := h.1
  have hstate : opState ((bus (n + 1)).fill state) = 0 := h.2
  rw [safeReadLoop]
  simp [spi2apbRead, spi2apbOperationQuery, hid, hstate, readEvents]

theorem safeReadLoop_retry (hid : HasId (stateAfter bus n state))
    (herr : opState (stateAfter bus n state) ≠ 0) :
    safeReadLoop bus addr (left + 1) n data state =
      let rest := safeReadLoop bus addr left (n + 2) ((bus n).fill data) (stateAfter bus n state)
      (rest.1, rest.2.1, readEvents bus n addr data.length ++ rest.2.2) := by
  rw [stateAfter] at hid herr ⊢
  rw [safeReadLoop]
  simp [spi2apbRead, spi2apbOperationQuery, hid, herr, readEvents]

theorem safeReadLoop_givesUp (h : GivesUp bus n left state) :
    (safeReadLoop bus addr left n data state).1 ≠ 0 := by
  rw [GivesUp, stateAfter] at h
  rw [safeReadLoop]
  obtain hid | ⟨rfl, herr⟩ := h
  · simp [spi2apbRead, spi2apbOperationQuery, hid]
  · by_cases hid : HasId ((bus (n + 1)).fill state)
    · simp [spi2apbRead, spi2apbOperationQuery, hid, herr]
    · simp [spi2apbRead, spi2apbOperationQuery, hid]

theorem serves_read (hasked : data.length ≤ askedOf (readCmd data.length))
    (h : Serves mem (readEvents bus n addr data.length ++ events) mem')
    (hstate : state.length = 4) :
    (Acknowledged (stateAfter bus n state) → (bus n).fill data = mem.bytes addr data.length) ∧
      Serves mem events mem' := by
  obtain ⟨hop, hret, mem₁, ⟨rfl, hperf⟩, hserves⟩ := h
  refine ⟨fun hack => ?_, hserves⟩
  rw [stateAfter_of_ret hret hstate] at hack
  have hmiso := hperf hack
  rw [addrOf_leBytes, leVal_leBytes_of_lt (readCmd_lt data.length)] at hmiso
  rw [Reply.fill_of_ret hop, Reply.received, Mem.bytes]
  refine List.map_congr_left fun i hi => hmiso i ?_
  exact lt_of_lt_of_le (List.mem_range.1 hi) hasked

/-- **Every byte of a successful read is APB data**, when the read asks for as much as it takes. -/
theorem safeReadLoop_bytes (hasked : data.length ≤ askedOf (readCmd data.length))
    (hstate : state.length = 4) (hret : (safeReadLoop bus addr left n data state).1 = 0)
    (h : Serves mem (safeReadLoop bus addr left n data state).2.2 mem') :
    (safeReadLoop bus addr left n data state).2.1 = mem.bytes addr data.length := by
  induction left, n, state using attempt_induction bus generalizing data with
  | ack left n state hack =>
    rw [safeReadLoop_acknowledged hack] at h ⊢
    rw [← List.append_nil (readEvents bus n addr data.length)] at h
    exact (serves_read hasked h hstate).1 hack
  | give left n state hgive => exact absurd hret (safeReadLoop_givesUp hgive)
  | retry left n state hid herr ih =>
    rw [safeReadLoop_retry hid herr] at h hret ⊢
    obtain ⟨-, hserves⟩ := serves_read hasked h hstate
    have hlen : ((bus n).fill data).length = data.length := (bus n).length_fill data
    have hrest := ih (by rw [hlen]; exact hasked) (length_stateAfter hstate) hret hserves
    rw [hlen] at hrest
    exact hrest

end Attempt

/-! ## The lengths -/

/-- **Reads agree with writes exactly for whole words up to one chunk.** -/
theorem readAgrees_iff (len : ℕ) : ReadAgrees len ↔ len % 4 = 0 ∧ len ≤ apbMaxOpBytes := by
  have hasked := askedOf_readCmd len
  have hmax : apbMaxOpBytes = 60000 := rfl
  constructor
  · intro h
    have := h.asked
    omega
  · rintro ⟨hword, hle⟩
    have hlen : len ≤ askedOf (readCmd len) := by omega
    have hapb : ∀ bus n addr buf mem mem', buf.length = len →
        (spi2apbSafeRead bus n addr buf).1 = 0 →
        Serves mem (spi2apbSafeRead bus n addr buf).2.2 mem' →
          (spi2apbSafeRead bus n addr buf).2.1 = mem.bytes addr len := by
      rintro bus n addr buf mem mem' rfl hret hserves
      exact safeReadLoop_bytes hlen (length_leBytes 4 0) hret hserves
    refine ⟨hlen, hapb, ?_⟩
    intro bus n m addr data buf mem mem₁ mem₂ hdata hbuf hwret hwserves hrret hrserves
    rw [hapb bus m addr buf mem₁ mem₂ hbuf hrret hrserves, ← hdata]
    obtain hzero | hpos := Nat.eq_zero_or_pos data.length
    · rw [List.length_eq_zero_iff.1 hzero]
      rfl
    · obtain ⟨mem₀, rfl⟩ := safeWrite_stores (by omega) hpos hwret hwserves
      exact bytes_store mem₀ addr (by omega)

/-- The device acknowledges everything; on a read it has one word and then zeros. -/
def fiveBus (n : ℕ) : Reply :=
  if n = 2 then ⟨0, fun i => [1, 2, 3, 4].getD i 0, 0⟩
  else ⟨0, fun i => [0x00, 0x00, 0x08, 0x16].getD i 0, 0⟩

/-- The memory after five bytes were written. -/
def fiveMem : Mem :=
  store (fun _ => 0) 0 [1, 2, 3, 4, 5]

/-- **Of five bytes only four are asked for, and the fifth is not what was written.** -/
theorem fiveBytes_not_read :
    askedOf (readCmd 5) = 4 ∧ (spi2apbSafeWrite fiveBus 0 0 [1, 2, 3, 4, 5]).1 = 0 ∧
      Serves (fun _ => 0) (spi2apbSafeWrite fiveBus 0 0 [1, 2, 3, 4, 5]).2.flatten fiveMem ∧
      (spi2apbSafeRead fiveBus 2 0 [0, 0, 0, 0, 0]).1 = 0 ∧
      Serves fiveMem (spi2apbSafeRead fiveBus 2 0 [0, 0, 0, 0, 0]).2.2 fiveMem ∧
      (spi2apbSafeRead fiveBus 2 0 [0, 0, 0, 0, 0]).2.1 = [1, 2, 3, 4, 0] := by
  have hwack : Acknowledged (stateAfter fiveBus 0 (leBytes 4 0)) := by decide
  have hrack : Acknowledged (stateAfter fiveBus 2 (leBytes 4 0)) := by decide
  have hwrite : spi2apbSafeWrite fiveBus 0 0 [1, 2, 3, 4, 5] =
      (0, [attemptEvents fiveBus 0 0 [1, 2, 3, 4, 5]]) := by
    rw [safeWrite_eq_resume (by decide), resume_acknowledged hwack]
    dsimp only
    rw [spi2apbSafeWrite, if_neg (by decide)]
    rfl
  rw [hwrite, spi2apbSafeRead, safeReadLoop_acknowledged hrack]
  refine ⟨by decide, rfl, ⟨rfl, rfl, fiveMem, fun _ => rfl, rfl⟩, rfl,
    ⟨rfl, rfl, fiveMem, ⟨rfl, fun _ i hi => ?_⟩, rfl⟩, by decide⟩
  revert i
  decide

end LddExample.Spi
