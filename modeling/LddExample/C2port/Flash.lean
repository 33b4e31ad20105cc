import LddExample.C2port.Frames
import Mathlib.Data.Nat.Bitwise

/-!
# Flash programming

The flash programming interface of a target, as the driver's sequences use it: a command is answered
by a status; a block command takes an address of two bytes and a size, is answered by a second
status, and then delivers or takes the bytes of the block. A programmed cell keeps the bits that
are set both in it and in the new byte; an erased cell has all bits set. The target may take its
time over every step, within the limits of the driver's timeouts.

* `Core`, `Latency`, `fpi`: the interface without its timing, the timing, and the registers.
* `Does L c p out c'`: with the interface in `c`, `p` ends with `out` and leaves it in `c'`.
* `does_readFlashData`, `does_writeFlashData`, `does_writeFlashErase`: what the driver's sequences
  read and leave in the flash. The address goes out in sixteen bits.
* `catTo`, `catFrom`: a caller that writes or reads the file in the portions the driver takes.
* **`erase_write_read`**: an image that is written after an erase is read back.
-/

namespace LddExample.C2port

open Interact

/-! ## The flash programming interface -/

/-- What the next byte for the data register is. -/
inductive Fp
  | command
  | arm (got : List UInt8)
  | block (write : Bool) (got : List UInt8)
  | program (addr left : ℕ)
deriving DecidableEq

/-- The flash programming interface of the target without its delays. -/
structure Core where
  ar : UInt8
  /-- the first key code was the last byte for the control register -/
  key : Bool
  enabled : Bool
  phase : Fp
  /-- bytes to be read -/
  out : List UInt8
  mem : ℕ → UInt8
  deviceid : UInt8
  revid : UInt8

/-- `C2PORT_INVALID_COMMAND` -/
def c2portInvalidCommand : UInt8 := 0x00

/-- The bytes of a block. -/
def cells (mem : ℕ → UInt8) (addr n : ℕ) : List UInt8 := (List.range n).map fun i => mem (addr + i)

/-- A byte for the flash programming data register. -/
def Core.accept (b : UInt8) (c : Core) : Core :=
  match c.phase with
  | .command =>
    if b = c2portDeviceErase then { c with phase := .arm [], out := [c2portCommandOk] }
    else if b = c2portBlockRead then { c with phase := .block false [], out := [c2portCommandOk] }
    else if b = c2portBlockWrite then { c with phase := .block true [], out := [c2portCommandOk] }
    else { c with out := [c2portInvalidCommand] }
  | .arm [b₀, b₁] =>
    { c with
      phase := .command
      out := [c2portCommandOk]
      mem := if [b₀, b₁, b] = [0xde, 0xad, 0xa5] then fun _ => 0xff else c.mem }
  | .arm got => { c with phase := .arm (got ++ [b]) }
  | .block write [hi, lo] =>
    let addr := hi.toNat * 256 + lo.toNat
    if write then
      { c with phase := .program addr b.toNat, out := [c2portCommandOk] }
    else
      { c with phase := .command, out := c2portCommandOk :: cells c.mem addr b.toNat }
  | .block write got => { c with phase := .block write (got ++ [b]) }
  | .program addr left =>
    { c with
      phase := if left ≤ 1 then .command else .program (addr + 1) (left - 1)
      out := if left ≤ 1 then [c2portCommandOk] else c.out
      mem := Function.update c.mem addr (c.mem addr &&& b) }

/-- A byte for the selected register. -/
def Core.write (b : UInt8) (c : Core) : Core :=
  if c.ar = c2portFpctl then
    { c with key := b == 0x02, enabled := c.enabled || (c.key && b == 0x01) }
  else if c.ar = c2portFpdat ∧ c.enabled = true then
    c.accept b
  else
    c

/-- A byte from the selected register. -/
def Core.read (c : Core) : UInt8 × Core :=
  if c.ar = c2portDeviceid then (c.deviceid, c)
  else if c.ar = c2portRevid then (c.revid, c)
  else (c.out.headD 0, { c with out := c.out.tail })

/-- How long the target takes over its `n`-th data access: strobes in the WAIT field, and reads of
the status until the byte is taken in and until a byte is there. -/
structure Latency where
  wait : ℕ → ℕ
  busy : ℕ → ℕ
  ready : ℕ → ℕ

/-- The target keeps the driver's timeouts. -/
structure Latency.InTime (L : Latency) : Prop where
  wait : ∀ n, L.wait n < 20
  busy : ∀ n, L.busy n < 20
  ready : ∀ n, L.busy n + L.ready n < 10000

/-- The interface with the polls that it still answers with busy or not ready. -/
structure Fpi where
  core : Core
  busy : ℕ
  notReady : ℕ
  n : ℕ

/-- The registers of the target. -/
def fpi (L : Latency) : Registers Fpi where
  reset r :=
    { r with
      core := { r.core with key := false, enabled := false, phase := .command, out := [] }
      busy := 0
      notReady := 0 }
  writeAr addr r := { r with core := { r.core with ar := addr } }
  readAr r :=
    if 0 < r.busy then (0x02, { r with busy := r.busy - 1 })
    else if 0 < r.notReady then (0x00, { r with notReady := r.notReady - 1 })
    else (if r.core.out = [] then 0x00 else 0x01, r)
  writeDr b r := (L.wait r.n, ⟨r.core.write b, L.busy r.n, L.ready r.n, r.n + 1⟩)
  readDr r :=
    (L.wait r.n, r.core.read.1, ⟨r.core.read.2, L.busy r.n, L.ready r.n, r.n + 1⟩)

/-! ## Sequences -/

/-- The lines are at rest and the interface is in `c`. -/
def Has (c : Core) (s : Bus (Iface Fpi)) : Prop :=
  ∃ r : Fpi, At .released ⟨.idle, r⟩ s ∧ r.core = c ∧ r.busy < 20 ∧ r.busy + r.notReady < 10000

variable {α β : Type}

/-- From `c` the program gives `out` and leaves the interface at `c'`, for any delays within `L`. -/
def Does (L : Latency) (c : Core) (p : Port α) (out : Except Errno α) (c' : Core) : Prop :=
  Spec (pins (serial (fpi L))) (Has c) p fun o s => o = out ∧ Has c' s

variable {L : Latency} {c c' c'' : Core}

theorem Does.bind {p : Port α} {f : α → Port β} {a : α} {out : Except Errno β}
    (hp : Does L c p (.ok a) c') (hf : Does L c' (f a) out c'') : Does L c (p >>= f) out c'' := by
  refine Spec.bind hp (fun a' => ?_) ?_
  · rintro s ⟨ha, hs⟩
    obtain rfl := Except.ok.inj ha
    exact hf s hs
  · rintro e s ⟨he, -⟩
    cases he

theorem Does.pure (a : α) : Does L c (pure a : Port α) (.ok a) c := fun _ hs => ⟨rfl, hs⟩

theorem Does.attempt {p : Port α} {out : Except Errno α} (hp : Does L c p out c') :
    Does L c (p.attempt : Port (Except Errno α)) (.ok out) c' := by
  refine (Spec.attempt hp).weaken (fun _ hs => hs) ?_
  rintro r s ⟨r', rfl, rfl, hs⟩
  exact ⟨rfl, hs⟩

theorem Does.of_gives {p : Port α} {out : Except Errno α}
    (h : ∀ r : Fpi, r.core = c → r.busy < 20 → r.busy + r.notReady < 10000 → ∃ r' : Fpi,
      Gives (serial (fpi L)) .released ⟨.idle, r⟩ p out .released ⟨.idle, r'⟩ ∧ r'.core = c' ∧
        r'.busy < 20 ∧ r'.busy + r'.notReady < 10000) : Does L c p out c' := by
  rintro s ⟨r, hat, hcore, hbusy, hready⟩
  obtain ⟨r', hgives, hr'⟩ := h r hcore hbusy hready
  obtain ⟨hout, hat'⟩ := hgives s hat
  exact ⟨hout, r', hat', hr'⟩

theorem does_writeAr (addr : UInt8) :
    Does L c (c2portWriteAr addr) (.ok ()) { c with ar := addr } := by
  refine .of_gives fun r hcore hbusy hready => ⟨_, gives_writeAr addr, ?_, hbusy, hready⟩
  rw [← hcore]
  rfl

theorem does_udelay (us : ℕ) : Does L c (udelay us) (.ok ()) c :=
  .of_gives fun r hcore hbusy hready => ⟨r, gives_udelay us, hcore, hbusy, hready⟩

theorem does_writeDr (hL : L.InTime) (b : UInt8) :
    Does L c (c2portWriteDr b) (.ok ()) (c.write b) := by
  refine .of_gives fun r hcore _ _ => ⟨⟨c.write b, L.busy r.n, L.ready r.n, r.n + 1⟩, ?_, rfl,
    hL.busy r.n, hL.ready r.n⟩
  have hwrite := @gives_writeDr Fpi (fpi L) r b
  have hwait : ((fpi L).writeDr b r).1 < 20 := hL.wait r.n
  rw [if_pos hwait, if_pos hwait] at hwrite
  rw [← hcore]
  exact hwrite

theorem does_readDr (hL : L.InTime) : Does L c c2portReadDr (.ok c.read.1) c.read.2 := by
  refine .of_gives fun r hcore _ _ => ⟨⟨c.read.2, L.busy r.n, L.ready r.n, r.n + 1⟩, ?_, rfl,
    hL.busy r.n, hL.ready r.n⟩
  have hread := @gives_readDr Fpi (fpi L) r
  have hwait : ((fpi L).readDr r).1 < 20 := hL.wait r.n
  rw [if_pos hwait, if_pos hwait] at hread
  rw [← hcore]
  exact hread

/-! ## Polling -/

theorem fpi_readAr (r : Fpi) : ((fpi L).readAr r).2.core = r.core ∧
    ((fpi L).readAr r).2.busy ≤ r.busy ∧
    ((fpi L).readAr r).2.busy + ((fpi L).readAr r).2.notReady ≤ r.busy + r.notReady := by
  dsimp only [fpi]
  by_cases hbusy : 0 < r.busy
  · rw [if_pos hbusy]
    exact ⟨rfl, by dsimp only; omega, by dsimp only; omega⟩
  · rw [if_neg hbusy]
    by_cases hready : 0 < r.notReady
    · rw [if_pos hready]
      exact ⟨rfl, le_rfl, by dsimp only; omega⟩
    · rw [if_neg hready]
      exact ⟨rfl, le_rfl, le_rfl⟩

/-- The status is read until it says what the driver waits for; `m` counts the reads to go. -/
theorem gives_pollAr (done : UInt8 → Bool) (m : Fpi → ℕ)
    (hdone : ∀ r : Fpi, r.core = c → m r = 0 → done ((fpi L).readAr r).1 = true)
    (hmore : ∀ r : Fpi, r.core = c → 0 < m r →
      done ((fpi L).readAr r).1 = false ∧ m ((fpi L).readAr r).2 < m r) :
    ∀ (timeout : ℕ) (r : Fpi), r.core = c → m r < timeout → ∃ r' : Fpi,
      Gives (serial (fpi L)) .released ⟨.idle, r⟩ (pollAr done timeout) (.ok ()) .released
        ⟨.idle, r'⟩ ∧ r'.core = c ∧ r'.busy ≤ r.busy ∧
        r'.busy + r'.notReady ≤ r.busy + r.notReady
  | 0, r, _, hr => absurd hr (Nat.not_lt_zero _)
  | timeout + 1, r, hcore, hr => by
    obtain ⟨hcore', hbusy, hready⟩ := @fpi_readAr L r
    obtain hm | hm := Nat.eq_zero_or_pos (m r)
    · refine ⟨_, gives_readAr.bind ?_, hcore'.trans hcore, hbusy, hready⟩
      rw [hdone r hcore hm]
      exact Gives.pure ()
    · obtain ⟨hnot, hlt⟩ := hmore r hcore hm
      obtain ⟨r', hrest, hr'⟩ := gives_pollAr done m hdone hmore timeout ((fpi L).readAr r).2
        (hcore'.trans hcore) (by omega)
      refine ⟨r', gives_readAr.bind ?_, hr'.1, hr'.2.1.trans hbusy, hr'.2.2.trans hready⟩
      rw [hnot]
      exact (gives_udelay 1).bind hrest

theorem does_pollInBusy : Does L c c2portPollInBusy (.ok ()) c := by
  have hdone : ∀ r : Fpi, r.core = c → r.busy = 0 →
      (((fpi L).readAr r).1 &&& 0x02 == 0) = true := by
    intro r _ hr
    dsimp only [fpi]
    rw [if_neg (by omega)]
    split_ifs
    · exact (by decide : ((0x00 : UInt8) &&& 0x02 == 0) = true)
    · exact (by decide : ((0x00 : UInt8) &&& 0x02 == 0) = true)
    · exact (by decide : ((0x01 : UInt8) &&& 0x02 == 0) = true)
  have hmore : ∀ r : Fpi, r.core = c → 0 < r.busy →
      (((fpi L).readAr r).1 &&& 0x02 == 0) = false ∧ ((fpi L).readAr r).2.busy < r.busy := by
    intro r _ hr
    dsimp only [fpi]
    rw [if_pos hr]
    exact ⟨(by decide : ((0x02 : UInt8) &&& 0x02 == 0) = false), Nat.sub_lt hr (by decide)⟩
  refine .of_gives fun r hcore hbusy hready => ?_
  obtain ⟨r', hgives, hcore', hbusy', hready'⟩ :=
    gives_pollAr (fun addr => addr &&& 0x02 == 0) (fun r => r.busy) hdone hmore 20 r hcore hbusy
  exact ⟨r', hgives, hcore', by omega, by omega⟩

theorem does_pollOutReady (hout : c.out ≠ []) : Does L c c2portPollOutReady (.ok ()) c := by
  have hdone : ∀ r : Fpi, r.core = c → r.busy + r.notReady = 0 →
      (((fpi L).readAr r).1 &&& 0x01 != 0) = true := by
    intro r hcore hr
    dsimp only [fpi]
    rw [if_neg (by omega), if_neg (by omega), hcore, if_neg hout]
    exact (by decide : ((0x01 : UInt8) &&& 0x01 != 0) = true)
  have hmore : ∀ r : Fpi, r.core = c → 0 < r.busy + r.notReady →
      (((fpi L).readAr r).1 &&& 0x01 != 0) = false ∧
        ((fpi L).readAr r).2.busy + ((fpi L).readAr r).2.notReady < r.busy + r.notReady := by
    intro r _ hr
    dsimp only [fpi]
    by_cases hbusy : 0 < r.busy
    · rw [if_pos hbusy]
      exact ⟨(by decide : ((0x02 : UInt8) &&& 0x01 != 0) = false), by dsimp only; omega⟩
    · rw [if_neg hbusy, if_pos (by omega)]
      exact ⟨(by decide : ((0x00 : UInt8) &&& 0x01 != 0) = false), by dsimp only; omega⟩
  refine .of_gives fun r hcore hbusy hready => ?_
  obtain ⟨r', hgives, hcore', hbusy', hready'⟩ :=
    gives_pollAr (fun addr => addr &&& 0x01 != 0) (fun r => r.busy + r.notReady) hdone hmore 10000
      r hcore hready
  exact ⟨r', hgives, hcore', by omega, by omega⟩

theorem does_sendByte (hL : L.InTime) (b : UInt8) : Does L c (sendByte b) (.ok ()) (c.write b) :=
  (does_writeDr hL b).attempt.bind does_pollInBusy

/-! ## Commands -/

/-- The flash programming data register is selected and the interface takes part. -/
structure Core.On (c : Core) : Prop where
  ar : c.ar = c2portFpdat
  enabled : c.enabled = true

theorem Core.On.write (h : c.On) (b : UInt8) : c.write b = c.accept b := by
  rw [Core.write, if_neg (by rw [h.ar]; decide), if_pos ⟨h.ar, h.enabled⟩]

theorem Core.On.read (h : c.On) : c.read = (c.out.headD 0, { c with out := c.out.tail }) := by
  rw [Core.read, if_neg (by rw [h.ar]; decide), if_neg (by rw [h.ar]; decide)]

theorem does_readDr_on (hL : L.InTime) (h : c.On) {b : UInt8} {out : List UInt8}
    (hout : c.out = b :: out) : Does L c c2portReadDr (.ok b) { c with out := out } := by
  have hread := does_readDr (c := c) hL
  rw [h.read, hout] at hread
  exact hread

theorem does_readStatus (hL : L.InTime) (h : c.On) {out : List UInt8}
    (hout : c.out = c2portCommandOk :: out) : Does L c readStatus (.ok ()) { c with out := out } :=
  (does_pollOutReady (by simp [hout])).bind <| (does_readDr_on hL h hout).bind <| Does.pure ()

/-- The interface with the flash programming data register selected. -/
def Core.at (c : Core) (phase : Fp) (out : List UInt8) : Core :=
  { c with ar := c2portFpdat, phase := phase, out := out }

/-- The interface waits for a command. -/
structure Core.Idle (c : Core) : Prop where
  enabled : c.enabled = true
  phase : c.phase = .command

theorem Core.Idle.on (h : c.Idle) (phase : Fp) (out : List UInt8) : (c.at phase out).On :=
  ⟨rfl, h.enabled⟩

theorem does_sendCommand (hL : L.InTime) (hidle : c.Idle) (command : UInt8) (phase : Fp)
    (hcommand : (command = c2portDeviceErase ∧ phase = .arm []) ∨
      (command = c2portBlockRead ∧ phase = .block false []) ∨
      (command = c2portBlockWrite ∧ phase = .block true [])) :
    Does L c (sendCommand command) (.ok ()) (c.at phase []) := by
  have hon : Core.On { c with ar := c2portFpdat } := ⟨rfl, hidle.enabled⟩
  have haccept : Core.accept command { c with ar := c2portFpdat } =
      c.at phase [c2portCommandOk] := by
    rw [Core.accept]
    dsimp only
    rw [hidle.phase]
    obtain ⟨rfl, rfl⟩ | ⟨rfl, rfl⟩ | ⟨rfl, rfl⟩ := hcommand <;> rfl
  refine (does_writeAr c2portFpdat).bind ((does_sendByte hL command).bind ?_)
  rw [hon.write, haccept]
  exact does_readStatus hL (hidle.on phase _) rfl

theorem Core.On.accept (h : c.On) (b : UInt8) : (c.accept b).On := by
  have hboth : (c.accept b).ar = c.ar ∧ (c.accept b).enabled = c.enabled := by
    rw [Core.accept]
    split
    · split_ifs <;> exact ⟨rfl, rfl⟩
    · exact ⟨rfl, rfl⟩
    · exact ⟨rfl, rfl⟩
    · dsimp only
      split_ifs <;> exact ⟨rfl, rfl⟩
    · exact ⟨rfl, rfl⟩
    · exact ⟨rfl, rfl⟩
  exact ⟨hboth.1.trans h.ar, hboth.2.trans h.enabled⟩

theorem does_sendThree (hL : L.InTime) (hon : c.On) (b₀ b₁ b₂ : UInt8) {f : Unit → Port α}
    {out : Except Errno α} (hf : Does L (((c.accept b₀).accept b₁).accept b₂) (f ()) out c') :
    Does L c (sendByte b₀ >>= fun _ => sendByte b₁ >>= fun _ => sendByte b₂ >>= f) out c' := by
  refine (does_sendByte hL _).bind ((does_sendByte hL _).bind ((does_sendByte hL _).bind ?_))
  rw [hon.write, (hon.accept b₀).write, ((hon.accept b₀).accept b₁).write]
  exact hf

theorem addr_bytes (offset : ℕ) :
    (UInt8.ofNat (offset >>> 8)).toNat * 256 + (UInt8.ofNat (offset &&& 0x00ff)).toNat =
      offset % 65536 := by
  have hlow : offset &&& 0x00ff = offset % 2 ^ 8 := Nat.and_two_pow_sub_one_eq_mod offset 8
  rw [hlow, Nat.shiftRight_eq_div_pow, UInt8.toNat_ofNat', UInt8.toNat_ofNat']
  omega

theorem does_sendBlock (hL : L.InTime) (hidle : c.Idle) (write : Bool) (offset : ℕ) {n : ℕ}
    (hn : n < 256) :
    Does L (c.at (.block write []) []) (sendBlock offset n) (.ok ())
      (if write then c.at (.program (offset % 65536) n) []
        else c.at .command (cells c.mem (offset % 65536) n)) := by
  have hsize : (UInt8.ofNat n).toNat = n := by
    rw [UInt8.toNat_ofNat']
    exact Nat.mod_eq_of_lt hn
  refine does_sendThree hL (hidle.on _ _) _ _ _ ?_
  simp only [Core.accept, Core.at, List.nil_append, List.singleton_append, addr_bytes, hsize]
  cases write with
  | true => exact does_readStatus hL (hidle.on _ _) rfl
  | false => exact does_readStatus hL (hidle.on _ _) rfl

/-! ## Blocks -/

theorem does_readBlock (hL : L.InTime) (hidle : c.Idle) : ∀ l : List UInt8,
    Does L (c.at .command l) (readBlock l.length) (.ok l) (c.at .command [])
  | [] => Does.pure []
  | _ :: l => (does_pollOutReady (by simp [Core.at])).bind <|
    (does_readDr_on hL (hidle.on _ _) rfl).bind <| (does_readBlock hL hidle l).bind <| Does.pure _

/-- The flash after bytes are programmed from `addr` on. -/
def programmed (mem : ℕ → UInt8) : ℕ → List UInt8 → ℕ → UInt8
  | _, [] => mem
  | addr, b :: bs => programmed (Function.update mem addr (mem addr &&& b)) (addr + 1) bs

theorem does_writeBlock (hL : L.InTime) :
    ∀ (bs : List UInt8) {c : Core} (addr : ℕ), c.Idle → bs ≠ [] →
      Does L (c.at (.program addr bs.length) []) (writeBlock bs) (.ok ())
        (Core.at { c with mem := programmed c.mem addr bs } .command [c2portCommandOk])
  | [], _, _, _, hne => absurd rfl hne
  | [b], c, addr, hidle, _ => by
    have hwrite := @does_writeDr L (c.at (.program addr 1) []) hL b
    rw [(hidle.on _ _).write] at hwrite
    exact hwrite.bind <| does_pollInBusy.bind <| Does.pure ()
  | b :: b' :: bs, c, addr, hidle, _ => by
    have hwrite := @does_writeDr L (c.at (.program addr (b :: b' :: bs).length) []) hL b
    have haccept : (c.at (.program addr (b :: b' :: bs).length) []).accept b =
        Core.at { c with mem := Function.update c.mem addr (c.mem addr &&& b) }
          (.program (addr + 1) (b' :: bs).length) [] := by
      simp [Core.accept, Core.at]
    rw [(hidle.on _ _).write, haccept] at hwrite
    exact hwrite.bind <| does_pollInBusy.bind <|
      does_writeBlock hL (b' :: bs) (addr + 1) ⟨hidle.enabled, hidle.phase⟩ (by simp)

/-! ## The flash programming sequences -/

/-- **A read** gives the cells from the offset on, at most 128, up to the end of the flash. -/
theorem does_readFlashData (hL : L.InTime) (hidle : c.Idle) (size offset count : ℕ) :
    ∃ c', c'.Idle ∧ c'.mem = c.mem ∧
      Does L c (readFlashData size offset count)
        (.ok (cells c.mem (offset % 65536) (min (min 128 (size - offset)) count))) c' := by
  dsimp only [readFlashData]
  split_ifs with hend hnone
  · rw [Nat.sub_eq_zero_of_le hend, Nat.min_zero, Nat.zero_min]
    exact ⟨c, hidle, rfl, Does.pure _⟩
  · rw [hnone]
    exact ⟨c, hidle, rfl, Does.pure _⟩
  · have hread := does_readBlock hL hidle
      (cells c.mem (offset % 65536) (min (min 128 (size - offset)) count))
    have hlen : (cells c.mem (offset % 65536) (min (min 128 (size - offset)) count)).length =
        min (min 128 (size - offset)) count := by simp [cells]
    rw [hlen] at hread
    refine ⟨c.at .command [], ⟨hidle.enabled, rfl⟩, rfl, ?_⟩
    exact (does_sendCommand hL hidle c2portBlockRead _ (.inr (.inl ⟨rfl, rfl⟩))).bind <|
      (does_sendBlock hL hidle false offset (by omega)).bind hread

/-- **A write** programs the cells from the offset on, at most 128, up to the end of the flash. -/
theorem does_writeFlashData (hL : L.InTime) (hidle : c.Idle) {size offset : ℕ}
    (hoffset : offset < size) {buffer : List UInt8} (hbuffer : buffer ≠ []) :
    let nwrite := min (min 128 buffer.length) (size - offset)
    ∃ c', c'.Idle ∧ c'.mem = programmed c.mem (offset % 65536) (buffer.take nwrite) ∧
      Does L c (writeFlashData size offset buffer) (.ok nwrite) c' := by
  intro nwrite
  have hlen : 0 < buffer.length := List.length_pos_iff.mpr hbuffer
  have htake : (buffer.take nwrite).length = nwrite := by
    rw [List.length_take]
    omega
  have hne : buffer.take nwrite ≠ [] := List.length_pos_iff.mp (by omega)
  have hwrite := does_writeBlock hL (buffer.take nwrite) (offset % 65536) hidle hne
  rw [htake] at hwrite
  refine ⟨Core.at { c with mem := programmed c.mem (offset % 65536) (buffer.take nwrite) } .command
    [c2portCommandOk], ⟨hidle.enabled, rfl⟩, rfl, ?_⟩
  dsimp only [writeFlashData]
  rw [if_neg (by omega)]
  exact (does_sendCommand hL hidle c2portBlockWrite _ (.inr (.inr ⟨rfl, rfl⟩))).bind <|
    (does_sendBlock hL hidle true offset (by omega)).bind <| hwrite.bind <|
    (does_pollOutReady (by simp [Core.at])).bind <| Does.pure nwrite

/-- **An erase** sets all bits of the flash. -/
theorem does_writeFlashErase (hL : L.InTime) (hidle : c.Idle) :
    ∃ c', c'.Idle ∧ c'.mem = (fun _ => 0xff) ∧ Does L c writeFlashErase (.ok ()) c' := by
  refine ⟨Core.at { c with mem := fun _ => 0xff } .command [c2portCommandOk],
    ⟨hidle.enabled, rfl⟩, rfl, ?_⟩
  refine (does_sendCommand hL hidle c2portDeviceErase _ (.inl ⟨rfl, rfl⟩)).bind ?_
  exact does_sendThree hL (hidle.on _ _) _ _ _ (does_pollOutReady (by simp [Core.at, Core.accept]))

/-! ## A session -/

theorem Does.map {p : Port α} {a : α} (f : α → β) (hp : Does L c p (.ok a) c') :
    Does L c (f <$> p) (.ok (f a)) c' :=
  hp.bind (Does.pure (f a))

theorem serve_does (r : Request) (size : ℕ) (dev : C2portDevice) {dev' : C2portDevice}
    {p : Port Reply} {out : Except Errno Reply} {s : Bus (Iface Fpi)}
    (hcheck : r.check dev = .ok ()) (hbody : r.body size dev = (dev', p))
    (hp : Does L c p out c') (hs : Has c s) :
    ∃ s', r.serve (pins (serial (fpi L))) size (dev, s) = (out, dev', s') ∧ Has c' s' := by
  obtain ⟨hout, hs'⟩ := hp s hs
  refine ⟨_, ?_, hs'⟩
  rw [Request.serve, hcheck]
  dsimp only
  rw [hbody, ← hout]

variable {σ : Type}

/-- A caller that writes `data` to the file in pieces of at most `count` bytes, and goes on behind
what was taken. -/
def catTo (h : Hardware Pin Pin.Answer σ) (size count : ℕ) :
    ℕ → ℕ → List UInt8 → C2portDevice × σ → Option Unit × (C2portDevice × σ)
  | _, _, [], s => (some (), s)
  | 0, _, _ :: _, s => (none, s)
  | fuel + 1, offset, b :: bs, s =>
    match (Request.writeFlashData offset ((b :: bs).take count)).serve h size s with
    | (.ok (.written n), s) => catTo h size count fuel (offset + n) ((b :: bs).drop n) s
    | (_, s) => (none, s)

/-- A caller that reads the file in pieces of at most `count` bytes until there is no more. -/
def catFrom (h : Hardware Pin Pin.Answer σ) (size count : ℕ) :
    ℕ → ℕ → C2portDevice × σ → Option (List UInt8) × (C2portDevice × σ)
  | 0, _, s => (none, s)
  | fuel + 1, offset, s =>
    match (Request.readFlashData offset count).serve h size s with
    | (.ok (.bytes []), s) => (some [], s)
    | (.ok (.bytes (b :: bs)), s) =>
      let (rest, s) := catFrom h size count fuel (offset + (b :: bs).length) s
      (rest.map (b :: bs ++ ·), s)
    | (_, s) => (none, s)

theorem programmed_append (mem : ℕ → UInt8) (addr : ℕ) (bs bs' : List UInt8) :
    programmed mem addr (bs ++ bs') =
      programmed (programmed mem addr bs) (addr + bs.length) bs' := by
  induction bs generalizing mem addr with
  | nil => rfl
  | cons b bs ih =>
    rw [List.cons_append, programmed, programmed, ih, List.length_cons, Nat.add_right_comm,
      Nat.add_assoc]

theorem programmed_apply (mem : ℕ → UInt8) (addr : ℕ) (bs : List UInt8) (i : ℕ) :
    programmed mem addr bs i =
      if addr ≤ i then bs[i - addr]?.elim (mem i) (mem i &&& ·) else mem i := by
  induction bs generalizing mem addr with
  | nil => simp [programmed]
  | cons b bs ih =>
    rw [programmed, ih]
    obtain hlt | rfl | hlt := Nat.lt_trichotomy i addr
    · rw [if_neg (by omega), if_neg (by omega), Function.update_of_ne (by omega)]
    · rw [if_neg (by omega), if_pos le_rfl, Function.update_self, Nat.sub_self]
      rfl
    · rw [if_pos (by omega), if_pos (by omega), Function.update_of_ne (by omega),
        show i - addr = i - (addr + 1) + 1 by omega]
      rfl

theorem cells_append (mem : ℕ → UInt8) (addr m n : ℕ) :
    cells mem addr (m + n) = cells mem addr m ++ cells mem (addr + m) n := by
  rw [cells, List.range_add, List.map_append, List.map_map]
  refine congrArg (_ ++ ·) (List.map_congr_left fun i _ => ?_)
  rw [Function.comp_apply, Nat.add_assoc]

theorem cells_programmed_erased (image : List UInt8) {size : ℕ} (himage : image.length ≤ size) :
    cells (programmed (fun _ => 0xff) 0 image) 0 size =
      image ++ List.replicate (size - image.length) 0xff := by
  have hand : ∀ b : UInt8, 0xff &&& b = b := by
    have hall : ∀ n : Fin 256, 0xff &&& UInt8.ofFin n = UInt8.ofFin n := by decide +kernel
    exact fun b => hall b.toFin
  refine List.ext_getElem? fun i => ?_
  rw [cells, List.getElem?_map, List.getElem?_append, List.getElem?_replicate]
  by_cases hi : i < size
  · rw [List.getElem?_range hi, Option.map_some, Nat.zero_add, programmed_apply,
      if_pos (Nat.zero_le i), Nat.sub_zero]
    split_ifs with hin hout
    · rw [List.getElem?_eq_getElem hin, Option.elim_some, hand]
    · rw [List.getElem?_eq_none (by omega), Option.elim_none]
    · omega
  · rw [List.getElem?_eq_none (by simpa using hi), Option.map_none, if_neg (by omega),
      if_neg (by omega)]

/-- **The pieces of a write** program what one write of the whole would. -/
theorem catTo_does (hL : L.InTime) {size count : ℕ} (hsize : size ≤ 65536) (hcount : 0 < count) :
    ∀ (fuel offset : ℕ) (data : List UInt8) {c : Core} {s : Bus (Iface Fpi)},
      data.length ≤ fuel → offset + data.length ≤ size → c.Idle → Has c s →
      ∃ c' s', catTo (pins (serial (fpi L))) size count fuel offset data (⟨true, true⟩, s) =
        (some (), ⟨true, true⟩, s') ∧ c'.Idle ∧ c'.mem = programmed c.mem offset data ∧ Has c' s'
  | fuel, offset, [], c, s, _, _, hidle, hs => by
    refine ⟨c, s, ?_, hidle, rfl, hs⟩
    cases fuel <;> rfl
  | 0, offset, _ :: _, _, _, hfuel, _, _, _ => absurd hfuel (by simp)
  | fuel + 1, offset, b :: bs, c, s, hfuel, hin, hidle, hs => by
    rw [List.length_cons] at hfuel hin
    have htake : (b :: bs).take count ≠ [] := by
      rw [Ne, List.take_eq_nil_iff]
      simp only [reduceCtorEq, or_false]
      omega
    obtain ⟨c₁, hidle₁, hmem₁, hdoes⟩ :=
      does_writeFlashData hL hidle (show offset < size by omega) htake
    obtain ⟨s₁, hserve, hs₁⟩ := serve_does (.writeFlashData offset ((b :: bs).take count)) size
      ⟨true, true⟩ rfl rfl (hdoes.map Reply.written) hs
    rw [List.length_take, List.length_cons] at hserve hmem₁
    generalize hn : min (min 128 (min count (bs.length + 1))) (size - offset) = n at hserve hmem₁
    have hpos : 0 < n ∧ n ≤ count ∧ n ≤ bs.length + 1 := by omega
    obtain ⟨c₂, s₂, hrest, hidle₂, hmem₂, hs₂⟩ := catTo_does hL hsize hcount fuel (offset + n)
      ((b :: bs).drop n) (by rw [List.length_drop, List.length_cons]; omega)
      (by rw [List.length_drop, List.length_cons]; omega) hidle₁ hs₁
    refine ⟨c₂, s₂, ?_, hidle₂, ?_, hs₂⟩
    · rw [catTo, hserve]
      exact hrest
    · have hlen : ((b :: bs).take n).length = n := by
        rw [List.length_take, List.length_cons]
        omega
      rw [hmem₂, hmem₁, List.take_take, Nat.min_eq_left hpos.2.1, Nat.mod_eq_of_lt (by omega)]
      conv_rhs => rw [← List.take_append_drop n (b :: bs), programmed_append, hlen]

/-- **The pieces of a read** are the flash from the offset on. -/
theorem catFrom_does (hL : L.InTime) {size count : ℕ} (hsize : size ≤ 65536) (hcount : 0 < count) :
    ∀ (fuel offset : ℕ) {c : Core} {s : Bus (Iface Fpi)}, size - offset < fuel → c.Idle → Has c s →
      (catFrom (pins (serial (fpi L))) size count fuel offset (⟨true, true⟩, s)).1 =
        some (cells c.mem offset (size - offset))
  | 0, _, _, _, hfuel, _, _ => absurd hfuel (Nat.not_lt_zero _)
  | fuel + 1, offset, c, s, hfuel, hidle, hs => by
    obtain ⟨c₁, hidle₁, hmem₁, hdoes⟩ := does_readFlashData hL hidle size offset count
    obtain ⟨s₁, hserve, hs₁⟩ := serve_does (.readFlashData offset count) size
      ⟨true, true⟩ rfl rfl (hdoes.map Reply.bytes) hs
    generalize hn : min (min 128 (size - offset)) count = n at hserve
    have hlen : (cells c.mem (offset % 65536) n).length = n := by simp [cells]
    rw [catFrom, hserve]
    cases hcells : cells c.mem (offset % 65536) n with
    | nil =>
      rw [hcells, List.length_nil] at hlen
      rw [show size - offset = 0 by omega]
      rfl
    | cons b bs =>
      rw [hcells, List.length_cons] at hlen
      have hrest := catFrom_does hL hsize hcount fuel (offset + n) (by omega) hidle₁ hs₁
      dsimp only
      rw [List.length_cons, hlen, hrest, hmem₁, ← hcells, Nat.mod_eq_of_lt (by omega),
        Option.map_some, ← cells_append]
      congr 2
      omega

/-- Turning the access on brings the lines to rest, whatever they and the target did before. -/
theorem serve_access (size : ℕ) (dev : C2portDevice) (s : Bus (Iface Fpi))
    (hirq : s.lines.irqOff = false) : ∃ t s', At .released t s' ∧
      Request.serve (pins (serial (fpi L))) size (.accessStore (some 1)) (dev, s) =
        (.ok .count, { dev with access := true }, s') := by
  refine ⟨_, _, ⟨rfl, ?_, rfl, ?_, rfl⟩, rfl⟩
  · change (s.rise (serial (fpi L))).lines.ck = true
    rw [Bus.rise]
    split_ifs <;> rfl
  · change (s.rise (serial (fpi L))).lines.irqOff = false
    rw [Bus.rise]
    split_ifs
    · exact hirq
    · exact hirq

/-- A reset ends whatever frame the target was in, and turns flash access off on both sides. -/
theorem serve_reset (size : ℕ) {dev : C2portDevice} (haccess : dev.access = true)
    {t : Iface Fpi} {s : Bus (Iface Fpi)} (hs : At .released t s) :
    ∃ c s', c.phase = .command ∧ Has c s' ∧
      Request.serve (pins (serial (fpi L))) size .storeReset (dev, s) =
        (.ok .count, { dev with flashAccess := false }, s') := by
  have hgives : Gives (serial (fpi L)) .released t (c2portReset >>= fun _ => pure Reply.count)
      (.ok .count) .released ⟨.idle, (fpi L).reset t.regs⟩ :=
    gives_reset.bind (Gives.pure Reply.count)
  obtain ⟨hout, hat⟩ := hgives s hs
  refine ⟨((fpi L).reset t.regs).core, _, rfl,
    ⟨_, hat, rfl, (by decide : 0 < 20), (by decide : 0 + 0 < 10000)⟩, ?_⟩
  obtain ⟨access, flashAccess⟩ := dev
  obtain rfl : access = true := haccess
  rw [← hout]
  rfl

/-- The key codes let the interface take part. -/
theorem does_storeFlashAccess (hL : L.InTime) :
    Does L c storeFlashAccess (.ok ())
      { c with ar := c2portFpctl, key := false, enabled := true } := by
  have hkeys : (Core.write 0x02 { c with ar := c2portFpctl }).write 0x01 =
      { c with ar := c2portFpctl, key := false, enabled := true } := by
    simp [Core.write]
  have hall : Does L c storeFlashAccess (.ok ())
      ((Core.write 0x02 { c with ar := c2portFpctl }).write 0x01) :=
    (does_writeAr c2portFpctl).bind <| (does_writeDr hL 0x02).bind <| (does_writeDr hL 0x01).bind <|
      does_udelay _
  rwa [hkeys] at hall

/-- The operations before the image is written. -/
def prepare : List Request :=
  [.accessStore (some 1), .storeReset, .storeFlashAccess (some 1), .storeFlashErase]

/-- **Before the image is written.** -/
theorem prepare_does (hL : L.InTime) (size : ℕ) (dev : C2portDevice) (s : Bus (Iface Fpi))
    (hirq : s.lines.irqOff = false) :
    ∃ c s', serveAll (pins (serial (fpi L))) size prepare (dev, s) =
      (prepare.map fun _ => .ok .count, ⟨true, true⟩, s') ∧
        c.Idle ∧ c.mem = (fun _ => 0xff) ∧ Has c s' := by
  obtain ⟨t, s₁, hs₁, haccess⟩ := @serve_access L size dev s hirq
  obtain ⟨c₂, s₂, hphase, hs₂, hreset⟩ :=
    @serve_reset L size { dev with access := true } rfl t s₁ hs₁
  have hon : Request.body size ⟨true, false⟩ (.storeFlashAccess (some 1)) =
      (⟨true, true⟩, storeFlashAccess >>= fun _ => pure Reply.count) := rfl
  obtain ⟨s₃, hflash, hs₃⟩ := serve_does (.storeFlashAccess (some 1)) size ⟨true, false⟩ rfl hon
    ((does_storeFlashAccess hL).bind (Does.pure Reply.count)) hs₂
  obtain ⟨c₄, hidle, hmem, herase⟩ := does_writeFlashErase hL
    (c := { c₂ with ar := c2portFpctl, key := false, enabled := true }) ⟨rfl, hphase⟩
  obtain ⟨s₄, hserve, hs₄⟩ := serve_does .storeFlashErase size ⟨true, true⟩ rfl rfl
    (herase.bind (Does.pure Reply.count)) hs₃
  refine ⟨c₄, s₄, ?_, hidle, hmem, hs₄⟩
  rw [prepare, serveAll, haccess]
  dsimp only
  rw [serveAll, hreset]
  dsimp only
  rw [serveAll, hflash]
  dsimp only
  rw [serveAll, hserve]
  rfl

/-- **Erase, write, read.** From any state of the driver, the lines and the target, with the target
within the driver's timeouts and a flash that sixteen bits address: after access, reset, flash
access and erase, an image that fits is written in pieces of any size, and a read of the whole
file in pieces of any size gives the image and the erased rest of the flash. -/
theorem erase_write_read (hL : L.InTime) {size count count' : ℕ} (hsize : size ≤ 65536)
    (hcount : 0 < count) (hcount' : 0 < count') (image : List UInt8) (himage : image.length ≤ size)
    (dev : C2portDevice) (s : Bus (Iface Fpi)) (hirq : s.lines.irqOff = false) :
    let board := pins (serial (fpi L))
    let prepared := serveAll board size prepare (dev, s)
    let written := catTo board size count image.length 0 image prepared.2
    prepared.1 = (prepare.map fun _ => .ok .count) ∧ written.1 = some () ∧
      (catFrom board size count' (size + 1) 0 written.2).1 =
        some (image ++ List.replicate (size - image.length) 0xff) := by
  obtain ⟨c₁, s₁, hprepare, hidle₁, hmem₁, hs₁⟩ := prepare_does hL size dev s hirq
  obtain ⟨c₂, s₂, hcatTo, hidle₂, hmem₂, hs₂⟩ := catTo_does hL hsize hcount image.length 0 image
    le_rfl (by omega) hidle₁ hs₁
  have hcatFrom := catFrom_does hL hsize hcount' (size + 1) 0 (Nat.lt_succ_self size) hidle₂ hs₂
  intro board prepared written
  have hprepared : prepared = (prepare.map fun _ => .ok .count, ⟨true, true⟩, s₁) := hprepare
  have hwritten : written = (some (), ⟨true, true⟩, s₂) := by
    rw [← hcatTo]
    change catTo board size count image.length 0 image prepared.2 = _
    rw [hprepared]
  refine ⟨by rw [hprepared], by rw [hwritten], ?_⟩
  rw [hwritten, hcatFrom, hmem₂, hmem₁, Nat.sub_zero, cells_programmed_erased image himage]

/-- A target that answers at once. -/
def promptTarget : Latency := ⟨fun _ => 0, fun _ => 0, fun _ => 0⟩

theorem promptTarget_inTime : promptTarget.InTime :=
  ⟨fun _ => by simp [promptTarget], fun _ => by simp [promptTarget],
    fun _ => by simp [promptTarget]⟩

theorem erase_write_read_bytes :
    let board := pins (serial (fpi promptTarget))
    let s : C2portDevice × Bus (Iface Fpi) :=
      (.init, ⟨⟨false, true, .released, false, 0, false, false⟩,
        ⟨.idle, ⟨0, false, false, .command, [], fun _ => 0x00, 0x12, 0x01⟩, 0, 0, 0⟩⟩)
    let written := catTo board 512 2 3 0 [0x02, 0x1f, 0x75] (serveAll board 512 prepare s).2
    (catFrom board 512 64 513 0 written.2).1 =
      some ([0x02, 0x1f, 0x75] ++ List.replicate 509 0xff) :=
  (erase_write_read promptTarget_inTime (by decide) (by decide) (by decide)
    [0x02, 0x1f, 0x75] (by decide) _ _ rfl).2.2

end LddExample.C2port
