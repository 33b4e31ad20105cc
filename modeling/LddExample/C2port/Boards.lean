import LddExample.C2port.Lines
import Mathlib.Data.BitVec

/-!
# Two boards

The driver runs on two boards. On the Duramar 2150 the lines are bits of a data port and a direction
port that other devices share, and every operation reads a port and writes it back; a bit that is an
input reads as the level of its line, so that writing it back changes the latch behind it. On the
EFM8 board the lines are GPIOs, and a data line that becomes an output is high until it is set.

* `duramar`, `efm`: the operations of the two boards.
* `pins_history`: a target is a function of the pulses so far.
* `not_odd_serveAll`: file operations one after the other never do anything on which boards differ.
* `Request.Within`: requests for flash that both boards have.
* **`boards_agree`**: for these both boards give the callers the same results and the target the
  same pulses, and the Duramar's other output bits and directions stay as they are.
-/

namespace LddExample.C2port

open Interact

variable {τ : Type}

/-! ## Duramar 2150 -/

/-- The bit of C2D in `DATA_PORT` and `DIR_PORT`. -/
def bitC2d : BitVec 8 := BitVec.twoPow 8 0

/-- The bit of C2CK. -/
def bitC2ck : BitVec 8 := BitVec.twoPow 8 1

/-- The registers of the Duramar 2150 and the target behind them. -/
structure Duramar (τ : Type) where
  /-- the latch behind `DATA_PORT` -/
  data : BitVec 8
  /-- `DIR_PORT`; a `1` is an output -/
  dir : BitVec 8
  /-- the levels of the lines from outside at a read of `DATA_PORT` -/
  ext : ℕ → BitVec 8
  reads : ℕ
  irqOff : Bool
  low : ℕ
  quiet : Bool
  target : τ

/-- `block_size * blocks_num` of `duramar2150_c2port_ops` -/
def duramarSize : ℕ := 512 * 30

namespace Duramar

/-- `inb(DATA_PORT)` -/
def inb (T : Target τ) (s : Duramar τ) : BitVec 8 :=
  let line := (s.ext s.reads &&& ~~~bitC2d) ||| (if T.level s.target then bitC2d else 0)
  (s.data &&& s.dir) ||| (line &&& ~~~s.dir)

/-- What the board does with C2D. -/
def c2d (s : Duramar τ) : C2d :=
  if s.dir.getLsbD 0 then .driven (s.data.getLsbD 0) else .released

/-- `outb(v, DATA_PORT)` after a read of the port: a rising C2CK is a pulse. -/
def outb (T : Target τ) (v : BitVec 8) (s : Duramar τ) : Duramar τ :=
  { s with
    data := v
    reads := s.reads + 1
    target :=
      if s.dir.getLsbD 1 && !s.data.getLsbD 1 && v.getLsbD 1 then
        T.pulse ⟨s.low, s.quiet, s.c2d⟩ s.target
      else
        s.target }

/-- A bit of a port is set or cleared. -/
def setBit (v mask : BitVec 8) (b : Bool) : BitVec 8 := if b then v ||| mask else v &&& ~~~mask

end Duramar

open Duramar

/-- `duramar2150_c2port_ops` -/
def duramar (T : Target τ) : Hardware Pin Pin.Answer (Duramar τ)
  | .access status, s => ((), { s with dir := setBit s.dir (bitC2d ||| bitC2ck) status })
  | .c2dDir dir, s => ((), { s with dir := setBit s.dir bitC2d !dir })
  | .c2dGet, s => ((s.inb T &&& bitC2d) != 0, { s with reads := s.reads + 1 })
  | .c2dSet b, s => ((), s.outb T (setBit (s.inb T) bitC2d b))
  | .c2ckSet true, s => ((), s.outb T (setBit (s.inb T) bitC2ck true))
  | .c2ckSet false, s =>
    ((), { s.outb T (setBit (s.inb T) bitC2ck false) with low := 0, quiet := s.irqOff })
  | .udelay us, s => ((), { s with low := s.low + us })
  | .localIrqDisable, s => ((), { s with irqOff := true })
  | .localIrqEnable, s => ((), { s with irqOff := false, quiet := false })

/-! ## EFM8SB1 -/

/-- `block_size * blocks_num` of `efm_c2port_ops` -/
def efmSize : ℕ := 512 * 16

/-- A GPIO: its direction and the value that it drives as an output. -/
structure Gpio where
  out : Bool
  value : Bool

/-- `gpio_direction_output` -/
def gpioDirectionOutput (value : Bool) (_ : Gpio) : Gpio := ⟨true, value⟩

/-- `gpio_direction_input` -/
def gpioDirectionInput (g : Gpio) : Gpio := { g with out := false }

/-- `gpio_set_value` -/
def gpioSetValue (value : Bool) (g : Gpio) : Gpio := { g with value := value }

/-- The two GPIOs of the client board and the target behind them. -/
structure Efm (τ : Type) where
  c2dIo : Gpio
  c2ckIo : Gpio
  irqOff : Bool
  low : ℕ
  quiet : Bool
  target : τ

/-- What the board does with C2D. -/
def Efm.c2d (s : Efm τ) : C2d := if s.c2dIo.out then .driven s.c2dIo.value else .released

/-- `efm_c2port_ops` -/
def efm (T : Target τ) : Hardware Pin Pin.Answer (Efm τ)
  | .access true, s =>
    ((), { s with c2dIo := gpioDirectionOutput true s.c2dIo
                  c2ckIo := gpioDirectionOutput true s.c2ckIo })
  | .access false, s =>
    ((), { s with c2dIo := gpioDirectionInput s.c2dIo, c2ckIo := gpioDirectionInput s.c2ckIo })
  | .c2dDir true, s => ((), { s with c2dIo := gpioDirectionInput s.c2dIo })
  | .c2dDir false, s => ((), { s with c2dIo := gpioDirectionOutput true s.c2dIo })
  | .c2dGet, s => (if s.c2dIo.out then s.c2dIo.value else T.level s.target, s)
  | .c2dSet b, s => ((), { s with c2dIo := gpioSetValue b s.c2dIo })
  | .c2ckSet true, s =>
    ((), { s with
      c2ckIo := gpioSetValue true s.c2ckIo
      target := if s.c2ckIo.out && !s.c2ckIo.value then
          T.pulse ⟨s.low, s.quiet, s.c2d⟩ s.target
        else
          s.target })
  | .c2ckSet false, s =>
    ((), { s with c2ckIo := gpioSetValue false s.c2ckIo, low := 0, quiet := s.irqOff })
  | .udelay us, s => ((), { s with low := s.low + us })
  | .localIrqDisable, s => ((), { s with irqOff := true })
  | .localIrqEnable, s => ((), { s with irqOff := false, quiet := false })

/-! ## The lines of a board -/

/-- What the lines say of C2D is so on the board, where its level is `c`. -/
def C2d.Shows : C2d → C2d → Prop
  | .released, c => c = .released
  | .stale, c => ∃ b, c = .driven b
  | .driven b, c => c = .driven b

theorem odd_pins (T : Target τ) (i : Pin) (s : Bus τ) (h : s.lines.odd = true) :
    (pins T i s).2.lines.odd = true := by
  cases i with
  | access status => cases status <;> simp [pins, h]
  | c2dDir dir => cases dir <;> exact h
  | c2dGet => simp [pins, h]
  | c2dSet b => simp [pins, h]
  | c2ckSet status =>
    cases status with
    | false => exact h
    | true =>
      dsimp only [pins, Bus.rise]
      split_ifs
      · simp [h]
      · exact h
  | udelay us => exact h
  | localIrqDisable => exact h
  | localIrqEnable => exact h

/-! ### Duramar 2150 -/

namespace Duramar

theorem getLsbD_setBit {i : ℕ} (hi : i < 8) (v : BitVec 8) (b : Bool) (k : ℕ) :
    (setBit v (BitVec.twoPow 8 i) b).getLsbD k = if k = i then b else v.getLsbD k := by
  by_cases hk : k = i
  · subst hk
    cases b with
    | true => simp [setBit, hi]
    | false => simp [setBit, hi]
  · have hki : ¬i = k := fun h => hk h.symm
    by_cases hk8 : k < 8
    · cases b with
      | true => simp [setBit, BitVec.getLsbD_twoPow, hk, hki]
      | false => simp [setBit, hk, hk8]
    · rw [BitVec.getLsbD_of_ge _ _ (by omega), if_neg hk, BitVec.getLsbD_of_ge _ _ (by omega)]

theorem getLsbD_inb (T : Target τ) (s : Duramar τ) (k : ℕ) (hk : k < 8) :
    (s.inb T).getLsbD k =
      if s.dir.getLsbD k then s.data.getLsbD k
      else if k = 0 then T.level s.target else (s.ext s.reads).getLsbD k := by
  have hbit : bitC2d.getLsbD k = decide (k = 0) := by
    simp [bitC2d, BitVec.getLsbD_twoPow, eq_comm]
  have hlevel : (if T.level s.target then bitC2d else 0).getLsbD k =
      (T.level s.target && decide (k = 0)) := by
    cases T.level s.target with
    | true => simpa using hbit
    | false => simp
  have hline :
      ((s.ext s.reads &&& ~~~bitC2d) ||| (if T.level s.target then bitC2d else 0)).getLsbD k =
        if k = 0 then T.level s.target else (s.ext s.reads).getLsbD k := by
    rw [BitVec.getLsbD_or, BitVec.getLsbD_and, BitVec.getLsbD_not, hbit, hlevel]
    by_cases h0 : k = 0
    · simp [h0]
    · simp [h0, hk]
  rw [inb, BitVec.getLsbD_or, BitVec.getLsbD_and, BitVec.getLsbD_and, BitVec.getLsbD_not, hline]
  cases s.dir.getLsbD k with
  | true => simp
  | false => simp [hk]

/-- The lines of the board, and that the other bits are as they were in `d₀`. -/
structure Rel (d₀ d : Duramar τ) (s : Bus τ) : Prop where
  ckOut : d.dir.getLsbD 1 = s.lines.ckOut
  ck : d.data.getLsbD 1 = s.lines.ck
  c2d : s.lines.c2d.Shows d.c2d
  irqOff : d.irqOff = s.lines.irqOff
  low : d.low = s.lines.low
  quiet : d.quiet = s.lines.quiet
  target : d.target = s.target
  dir : ∀ k, 2 ≤ k → d.dir.getLsbD k = d₀.dir.getLsbD k
  data : ∀ k, 2 ≤ k → d₀.dir.getLsbD k = true → d.data.getLsbD k = d₀.data.getLsbD k

theorem Rel.frame {d₀ d : Duramar τ} {s : Bus τ} (h : Rel d₀ d s) (T : Target τ) (k : ℕ)
    (hk : 2 ≤ k) (hout : d₀.dir.getLsbD k = true) :
    (d.inb T).getLsbD k = d₀.data.getLsbD k := by
  have hk8 : k < 8 := BitVec.lt_of_getLsbD hout
  rw [getLsbD_inb T d k hk8, h.dir k hk, if_pos hout, h.data k hk hout]

theorem setBit_both (v : BitVec 8) (b : Bool) :
    setBit v (bitC2d ||| bitC2ck) b = setBit (setBit v bitC2d b) bitC2ck b := by
  cases b with
  | true => exact (BitVec.or_assoc v bitC2d bitC2ck).symm
  | false =>
    change v &&& ~~~(bitC2d ||| bitC2ck) = v &&& ~~~bitC2d &&& ~~~bitC2ck
    rw [BitVec.not_or, BitVec.and_assoc]

section Sim

variable {T : Target τ} {d₀ d : Duramar τ} {s : Bus τ}

theorem Rel.access (h : Rel d₀ d s) (status : Bool) :
    Rel d₀ (duramar T (.access status) d).2 (pins T (.access status) s).2 := by
  have hbit : ∀ k, (setBit d.dir (bitC2d ||| bitC2ck) status).getLsbD k =
      if k = 1 then status else if k = 0 then status else d.dir.getLsbD k := fun k => by
    rw [setBit_both, bitC2ck, getLsbD_setBit (by omega), bitC2d, getLsbD_setBit (by omega)]
  have hdir : ∀ k, 2 ≤ k →
      (duramar T (.access status) d).2.dir.getLsbD k = d₀.dir.getLsbD k := fun k hk => by
    rw [duramar, hbit, if_neg (by omega), if_neg (by omega), h.dir k hk]
  have hc2d : (duramar T (.access status) d).2.c2d =
      if status then .driven (d.data.getLsbD 0) else .released := by
    rw [duramar, Duramar.c2d, hbit]
    rfl
  cases status with
  | false => exact { h with ckOut := hbit 1, c2d := hc2d, dir := hdir }
  | true => exact { h with ckOut := hbit 1, c2d := ⟨_, hc2d⟩, dir := hdir }

theorem Rel.c2dDir (h : Rel d₀ d s) (dir : Bool) :
    Rel d₀ (duramar T (.c2dDir dir) d).2 (pins T (.c2dDir dir) s).2 := by
  have hbit : ∀ k, (setBit d.dir bitC2d !dir).getLsbD k =
      if k = 0 then !dir else d.dir.getLsbD k := getLsbD_setBit (by omega) _ _
  have hdir : ∀ k, 2 ≤ k →
      (duramar T (.c2dDir dir) d).2.dir.getLsbD k = d₀.dir.getLsbD k := fun k hk => by
    rw [duramar, hbit, if_neg (by omega), h.dir k hk]
  have hc2d : (duramar T (.c2dDir dir) d).2.c2d =
      if dir then .released else .driven (d.data.getLsbD 0) := by
    rw [duramar, Duramar.c2d, hbit]
    cases dir <;> rfl
  have hck := (hbit 1).trans h.ckOut
  cases dir with
  | true => exact { h with ckOut := hck, c2d := hc2d, dir := hdir }
  | false => exact { h with ckOut := hck, c2d := ⟨_, hc2d⟩, dir := hdir }

theorem and_bitC2d (v : BitVec 8) : ((v &&& bitC2d) != 0) = v.getLsbD 0 := by
  rw [bitC2d, BitVec.and_twoPow]
  cases v.getLsbD 0 <;> decide

theorem c2d_eq_released : d.c2d = .released ↔ d.dir.getLsbD 0 = false := by
  rw [Duramar.c2d]
  cases d.dir.getLsbD 0 <;> simp

theorem c2d_eq_driven {b : Bool} :
    d.c2d = .driven b ↔ d.dir.getLsbD 0 = true ∧ d.data.getLsbD 0 = b := by
  rw [Duramar.c2d]
  cases d.dir.getLsbD 0 <;> simp

theorem Rel.c2dGet (h : Rel d₀ d s) (hodd : ¬(pins T .c2dGet s).2.lines.odd = true) :
    (duramar T .c2dGet d).1 = (pins T .c2dGet s).1 := by
  have hget : (duramar T .c2dGet d).1 = (d.inb T).getLsbD 0 := and_bitC2d _
  have hc2d := h.c2d
  rw [hget, getLsbD_inb T d 0 (by omega)]
  dsimp only [pins] at hodd ⊢
  cases hc : s.lines.c2d with
  | released =>
    rw [hc] at hc2d
    rw [c2d_eq_released.mp hc2d, h.target]
    rfl
  | stale =>
    rw [hc] at hodd
    exact absurd (Bool.or_true _) hodd
  | driven b =>
    rw [hc] at hc2d
    obtain ⟨hdir, hdata⟩ := c2d_eq_driven.mp hc2d
    rw [hdir, hdata]
    rfl

theorem Rel.outb (h : Rel d₀ d s) {v : BitVec 8}
    (hv : ∀ k, 2 ≤ k → v.getLsbD k = (d.inb T).getLsbD k) {lines : Lines} {target : τ}
    (hck : v.getLsbD 1 = lines.ck) (hckOut : lines.ckOut = s.lines.ckOut)
    (hc2d : lines.c2d.Shows (if d.dir.getLsbD 0 then .driven (v.getLsbD 0) else .released))
    (hirq : lines.irqOff = s.lines.irqOff) (hlow : lines.low = s.lines.low)
    (hquiet : lines.quiet = s.lines.quiet) (htarget : (d.outb T v).target = target) :
    Rel d₀ (d.outb T v) ⟨lines, target⟩ where
  ckOut := h.ckOut.trans hckOut.symm
  ck := hck
  c2d := hc2d
  irqOff := h.irqOff.trans hirq.symm
  low := h.low.trans hlow.symm
  quiet := h.quiet.trans hquiet.symm
  target := htarget
  dir := h.dir
  data k hk hout := (hv k hk).trans (h.frame T k hk hout)

theorem Rel.c2dSet (h : Rel d₀ d s) (b : Bool)
    (hodd : ¬(pins T (.c2dSet b) s).2.lines.odd = true) :
    Rel d₀ (duramar T (.c2dSet b) d).2 (pins T (.c2dSet b) s).2 := by
  have hckOut : d.dir.getLsbD 1 = true := by
    dsimp only [pins] at hodd
    rw [h.ckOut]
    cases hck : s.lines.ckOut with
    | true => rfl
    | false =>
      rw [hck] at hodd
      exact absurd (Bool.or_true _) hodd
  have hv : ∀ k, (setBit (d.inb T) bitC2d b).getLsbD k =
      if k = 0 then b else (d.inb T).getLsbD k := getLsbD_setBit (by omega) _ _
  have hv1 : (setBit (d.inb T) bitC2d b).getLsbD 1 = d.data.getLsbD 1 := by
    rw [hv, if_neg (by omega), getLsbD_inb T d 1 (by omega), if_pos hckOut]
  refine h.outb (fun k hk => by rw [hv, if_neg (by omega)]) (hv1.trans h.ck) rfl ?_ rfl rfl rfl ?_
  · rw [hv]
    have hc2d := h.c2d
    cases hc : s.lines.c2d with
    | released =>
      rw [hc] at hc2d
      rw [c2d_eq_released.mp hc2d]
      exact rfl
    | stale =>
      rw [hc] at hc2d
      obtain ⟨b', hb'⟩ := hc2d
      rw [(c2d_eq_driven.mp hb').1]
      exact rfl
    | driven b' =>
      rw [hc] at hc2d
      rw [(c2d_eq_driven.mp hc2d).1]
      exact rfl
  · rw [Duramar.outb, hv1]
    cases d.data.getLsbD 1 <;> simp [h.target]

theorem Rel.shows_c2ckSet (h : Rel d₀ d s) (b : Bool) :
    s.lines.c2d.Shows (if d.dir.getLsbD 0 then
      .driven ((setBit (d.inb T) bitC2ck b).getLsbD 0) else .released) := by
  have hc2d := h.c2d
  have hv : d.dir.getLsbD 0 = true →
      (setBit (d.inb T) bitC2ck b).getLsbD 0 = d.data.getLsbD 0 := fun hdir => by
    rw [bitC2ck, getLsbD_setBit (by omega), if_neg (by omega), getLsbD_inb T d 0 (by omega),
      if_pos hdir]
  cases hdir : d.dir.getLsbD 0 with
  | true => rwa [Duramar.c2d, hdir, ← hv hdir] at hc2d
  | false => rwa [Duramar.c2d, hdir] at hc2d

theorem Rel.c2ckSet_false (h : Rel d₀ d s) :
    Rel d₀ (duramar T (.c2ckSet false) d).2 (pins T (.c2ckSet false) s).2 := by
  have hv : ∀ k, (setBit (d.inb T) bitC2ck false).getLsbD k =
      if k = 1 then false else (d.inb T).getLsbD k := getLsbD_setBit (by omega) _ _
  have hrel : Rel d₀ (d.outb T (setBit (d.inb T) bitC2ck false))
      ⟨{ s.lines with ck := false }, s.target⟩ := by
    refine h.outb (fun k hk => by rw [hv, if_neg (by omega)]) (hv 1) rfl (h.shows_c2ckSet false)
      rfl rfl rfl ?_
    rw [Duramar.outb, hv]
    simp [h.target]
  exact { hrel with low := rfl, quiet := h.irqOff }

theorem Rel.c2ckSet_true (h : Rel d₀ d s) (hodd : ¬(s.rise T).lines.odd = true) :
    Rel d₀ (duramar T (.c2ckSet true) d).2 (s.rise T) := by
  have hv : ∀ k, (setBit (d.inb T) bitC2ck true).getLsbD k =
      if k = 1 then true else (d.inb T).getLsbD k := getLsbD_setBit (by omega) _ _
  have hedge : (d.dir.getLsbD 1 && !d.data.getLsbD 1 && true) = (s.lines.ckOut && !s.lines.ck) := by
    rw [h.ckOut, h.ck, Bool.and_true]
  have hframe : ∀ k, 2 ≤ k →
      (setBit (d.inb T) bitC2ck true).getLsbD k = (d.inb T).getLsbD k := fun k hk => by
    rw [hv, if_neg (by omega)]
  rw [Bus.rise] at hodd ⊢
  split_ifs at hodd ⊢ with hrise
  · refine h.outb hframe (hv 1) rfl (h.shows_c2ckSet true) rfl rfl rfl ?_
    have hc2d : d.c2d = s.lines.c2d := by
      have hc2d := h.c2d
      cases hc : s.lines.c2d with
      | released => rwa [hc] at hc2d
      | stale =>
        rw [hc] at hodd
        exact absurd (Bool.or_true _) hodd
      | driven b => rwa [hc] at hc2d
    rw [Duramar.outb, hv]
    change (if d.dir.getLsbD 1 && !d.data.getLsbD 1 && true then _ else _) = _
    rw [hedge, if_pos hrise, h.low, h.quiet, hc2d, h.target]
  · refine h.outb hframe (hv 1) rfl (h.shows_c2ckSet true) rfl rfl rfl ?_
    rw [Duramar.outb, hv]
    change (if d.dir.getLsbD 1 && !d.data.getLsbD 1 && true then _ else _) = _
    rw [hedge, if_neg hrise, h.target]

end Sim

/-- **The Duramar follows the lines**, up to operations that are odd. -/
theorem sim (T : Target τ) (d₀ : Duramar τ) (i : Pin) (d : Duramar τ) (s : Bus τ)
    (h : Rel d₀ d s) :
    (pins T i s).2.lines.odd = true ∨
      ((duramar T i d).1 = (pins T i s).1 ∧ Rel d₀ (duramar T i d).2 (pins T i s).2) := by
  by_cases hodd : (pins T i s).2.lines.odd = true
  · exact .inl hodd
  refine .inr ?_
  cases i with
  | access status => exact ⟨by cases status <;> rfl, h.access status⟩
  | c2dDir dir => exact ⟨by cases dir <;> rfl, h.c2dDir dir⟩
  | c2dGet => exact ⟨h.c2dGet hodd, { h with }⟩
  | c2dSet b => exact ⟨rfl, h.c2dSet b hodd⟩
  | c2ckSet status =>
    cases status with
    | true => exact ⟨rfl, h.c2ckSet_true hodd⟩
    | false => exact ⟨rfl, h.c2ckSet_false⟩
  | udelay us => exact ⟨rfl, { h with low := congrArg (· + us) h.low }⟩
  | localIrqDisable => exact ⟨rfl, { h with irqOff := rfl }⟩
  | localIrqEnable => exact ⟨rfl, { h with irqOff := rfl, quiet := rfl }⟩

end Duramar

/-! ### EFM8SB1 -/

namespace Efm

/-- The lines of the board; a clock that is an input has no level of its own. -/
structure Rel (e : Efm τ) (s : Bus τ) : Prop where
  ckOut : e.c2ckIo.out = s.lines.ckOut
  ck : s.lines.ckOut = true → e.c2ckIo.value = s.lines.ck
  c2d : s.lines.c2d.Shows e.c2d
  irqOff : e.irqOff = s.lines.irqOff
  low : e.low = s.lines.low
  quiet : e.quiet = s.lines.quiet
  target : e.target = s.target

variable {T : Target τ} {e : Efm τ} {s : Bus τ}

theorem c2d_eq_released : e.c2d = .released ↔ e.c2dIo.out = false := by
  rw [Efm.c2d]
  cases e.c2dIo.out <;> simp

theorem c2d_eq_driven {b : Bool} :
    e.c2d = .driven b ↔ e.c2dIo.out = true ∧ e.c2dIo.value = b := by
  rw [Efm.c2d]
  cases e.c2dIo.out <;> simp

theorem Rel.access (h : Rel e s) (status : Bool)
    (hodd : ¬(pins T (.access status) s).2.lines.odd = true) :
    Rel (efm T (.access status) e).2 (pins T (.access status) s).2 := by
  cases status with
  | false => exact { h with ckOut := rfl, ck := nofun, c2d := rfl }
  | true =>
    refine { h with ckOut := rfl, ck := fun _ => ?_, c2d := ⟨true, rfl⟩ }
    -- the clock was set high before it becomes an output
    dsimp only [pins] at hodd
    cases hck : s.lines.ck with
    | true => exact hck.symm
    | false =>
      rw [hck] at hodd
      exact absurd (Bool.or_true _) hodd

theorem Rel.c2dGet (h : Rel e s) (hodd : ¬(pins T .c2dGet s).2.lines.odd = true) :
    (efm T .c2dGet e).1 = (pins T .c2dGet s).1 := by
  have hc2d := h.c2d
  dsimp only [pins, efm] at hodd ⊢
  cases hc : s.lines.c2d with
  | released =>
    rw [hc] at hc2d
    rw [c2d_eq_released.mp hc2d, h.target]
    rfl
  | stale =>
    rw [hc] at hodd
    exact absurd (Bool.or_true _) hodd
  | driven b =>
    rw [hc] at hc2d
    obtain ⟨hout, hvalue⟩ := c2d_eq_driven.mp hc2d
    rw [hout, hvalue]
    rfl

theorem Rel.c2dSet (h : Rel e s) (b : Bool) :
    Rel (efm T (.c2dSet b) e).2 (pins T (.c2dSet b) s).2 := by
  refine { h with c2d := ?_ }
  have hc2d := h.c2d
  have hset : (efm T (.c2dSet b) e).2.c2d = if e.c2dIo.out then .driven b else .released := rfl
  dsimp only [pins]
  rw [hset]
  cases hc : s.lines.c2d with
  | released =>
    rw [hc] at hc2d
    rw [c2d_eq_released.mp hc2d]
    exact rfl
  | stale =>
    rw [hc] at hc2d
    obtain ⟨b', hb'⟩ := hc2d
    rw [(c2d_eq_driven.mp hb').1]
    exact rfl
  | driven b' =>
    rw [hc] at hc2d
    rw [(c2d_eq_driven.mp hc2d).1]
    exact rfl

theorem Rel.c2ckSet_true (h : Rel e s) (hodd : ¬(s.rise T).lines.odd = true) :
    Rel (efm T (.c2ckSet true) e).2 (s.rise T) := by
  have hedge : (e.c2ckIo.out && !e.c2ckIo.value) = (s.lines.ckOut && !s.lines.ck) := by
    rw [h.ckOut]
    cases hck : s.lines.ckOut with
    | false => rfl
    | true => rw [h.ck hck]
  rw [Bus.rise] at hodd ⊢
  dsimp only [efm]
  rw [hedge]
  split_ifs at hodd ⊢ with hrise
  · refine { h with ck := fun _ => rfl, target := ?_ }
    have hc2d := h.c2d
    cases hc : s.lines.c2d with
    | released =>
      rw [hc] at hc2d
      rw [h.low, h.quiet, h.target, show e.c2d = .released from hc2d]
    | stale =>
      rw [hc] at hodd
      exact absurd (Bool.or_true _) hodd
    | driven b =>
      rw [hc] at hc2d
      rw [h.low, h.quiet, h.target, show e.c2d = .driven b from hc2d]
  · exact { h with ck := fun _ => rfl }

/-- **The EFM8 board follows the lines**, up to operations that are odd. -/
theorem sim (T : Target τ) (i : Pin) (e : Efm τ) (s : Bus τ) (h : Rel e s) :
    (pins T i s).2.lines.odd = true ∨
      ((efm T i e).1 = (pins T i s).1 ∧ Rel (efm T i e).2 (pins T i s).2) := by
  by_cases hodd : (pins T i s).2.lines.odd = true
  · exact .inl hodd
  refine .inr ?_
  cases i with
  | access status => exact ⟨by cases status <;> rfl, h.access status hodd⟩
  | c2dDir dir =>
    cases dir with
    | true => exact ⟨rfl, { h with c2d := rfl }⟩
    | false => exact ⟨rfl, { h with c2d := ⟨true, rfl⟩ }⟩
  | c2dGet => exact ⟨h.c2dGet hodd, { h with }⟩
  | c2dSet b => exact ⟨rfl, h.c2dSet b⟩
  | c2ckSet status =>
    cases status with
    | true => exact ⟨rfl, h.c2ckSet_true hodd⟩
    | false => exact ⟨rfl, { h with ck := fun _ => rfl, low := rfl, quiet := h.irqOff }⟩
  | udelay us => exact ⟨rfl, { h with low := congrArg (· + us) h.low }⟩
  | localIrqDisable => exact ⟨rfl, { h with irqOff := rfl }⟩
  | localIrqEnable => exact ⟨rfl, { h with irqOff := rfl, quiet := rfl }⟩

end Efm

/-! ## File operations on a board -/

/-- The target after the pulses of a list. -/
def Target.after (T : Target τ) (t₀ : τ) (l : List Pulse) : τ := l.foldl (fun t p => T.pulse p t) t₀

/-- The bus whose target has seen the pulses of the history. -/
def Bus.lift (T : Target τ) (t₀ : τ) (s : Bus (List Pulse)) : Bus τ :=
  ⟨s.lines, T.after t₀ s.target⟩

/-- **A target is a function of the pulses so far.** -/
theorem pins_lift (T : Target τ) (t₀ : τ) (i : Pin) (s : Bus (List Pulse)) :
    pins T i (s.lift T t₀) =
      ((pins (history fun l => T.level (T.after t₀ l)) i s).1,
        (pins (history fun l => T.level (T.after t₀ l)) i s).2.lift T t₀) := by
  cases i with
  | access status => cases status <;> rfl
  | c2dDir dir => cases dir <;> rfl
  | c2dGet => rfl
  | c2dSet b => rfl
  | c2ckSet status =>
    cases status with
    | false => rfl
    | true =>
      refine Prod.ext rfl ?_
      dsimp only [pins, Bus.rise, Bus.lift]
      split_ifs
      · simp [Target.after, history]
      · rfl
  | udelay us => rfl
  | localIrqDisable => rfl
  | localIrqEnable => rfl

section Serve

variable {σ σ' : Type} {h : Hardware Pin Pin.Answer σ} {h' : Hardware Pin Pin.Answer σ'}
  {R : σ → σ' → Prop} {Bad : σ' → Prop} {J : C2portDevice × σ' → Prop} {size : ℕ}

/-- A simulation carries over to file operations that stay away from `Bad`. -/
theorem serve_sim (hbad : ∀ i s', Bad s' → Bad (h' i s').2)
    (hsim : ∀ i s s', R s s' →
      Bad (h' i s').2 ∨ ((h i s).1 = (h' i s').1 ∧ R (h i s).2 (h' i s').2))
    (r : Request) (dev : C2portDevice) {s : σ} {s' : σ'} (hR : R s s')
    (hgood : ¬Bad (r.serve h' size (dev, s')).2.2) :
    (r.serve h size (dev, s)).1 = (r.serve h' size (dev, s')).1 ∧
      (r.serve h size (dev, s)).2.1 = (r.serve h' size (dev, s')).2.1 ∧
      R (r.serve h size (dev, s)).2.2 (r.serve h' size (dev, s')).2.2 := by
  dsimp only [Request.serve] at hgood ⊢
  cases hcheck : r.check dev with
  | error e => exact ⟨rfl, rfl, hR⟩
  | ok u =>
    rw [hcheck] at hgood
    obtain hb | ⟨hout, hR'⟩ := run_sim hbad hsim (r.body size dev).2 s s' hR
    · exact absurd hb hgood
    · exact ⟨hout, rfl, hR'⟩

theorem serveAll_sim (hbad : ∀ i s', Bad s' → Bad (h' i s').2)
    (hsim : ∀ i s s', R s s' →
      Bad (h' i s').2 ∨ ((h i s).1 = (h' i s').1 ∧ R (h i s).2 (h' i s').2))
    (hJ : ∀ (r : Request) s', J s' → J (r.serve h' size s').2) (hgood : ∀ s', J s' → ¬Bad s'.2) :
    ∀ (rs : List Request) (dev : C2portDevice) {s : σ} {s' : σ'}, R s s' → J (dev, s') →
      (serveAll h size rs (dev, s)).1 = (serveAll h' size rs (dev, s')).1 ∧
        R (serveAll h size rs (dev, s)).2.2 (serveAll h' size rs (dev, s')).2.2
  | [], _, _, _, hR, _ => ⟨rfl, hR⟩
  | r :: rs, dev, s, s', hR, hs' => by
    have hJ' := hJ r _ hs'
    obtain ⟨hout, hdev, hR'⟩ := serve_sim hbad hsim r dev hR (hgood _ hJ')
    obtain ⟨houts, hR''⟩ := serveAll_sim hbad hsim hJ hgood rs _ hR' hJ'
    have hst : (r.serve h size (dev, s)).2 =
        ((r.serve h' size (dev, s')).2.1, (r.serve h size (dev, s)).2.2) := Prod.ext hdev rfl
    dsimp only [serveAll]
    rw [hst]
    exact ⟨congrArg₂ List.cons hout houts, hR''⟩

end Serve

/-- The lines are up and nothing was odd so far. -/
def NotOdd (s : C2portDevice × Bus (List Pulse)) : Prop :=
  Up s.1.access false .released s.2 ∧ s.2.lines.odd = false

/-- **File operations one after the other do nothing odd**: behind its check an operation finds the
port on, or does not use it. -/
theorem NotOdd.serve {level : List Pulse → Bool} {size : ℕ} (r : Request)
    (s : C2portDevice × Bus (List Pulse)) (hs : NotOdd s) :
    NotOdd (r.serve (pins (history level)) size s).2 := by
  obtain ⟨dev, bus⟩ := s
  obtain ⟨hup, hodd⟩ := hs
  dsimp only [Request.serve]
  cases hcheck : r.check dev with
  | error e => exact ⟨hup, hodd⟩
  | ok u =>
    by_cases hr : ∃ st, r = .accessStore st
    · obtain ⟨st, rfl⟩ := hr
      obtain ⟨hup', hodd'⟩ := @up_accessStore level _ _ st size dev bus hup
      change bus.lines.odd = false at hodd
      rw [hodd] at hup' hodd'
      exact ⟨hup', hodd'⟩
    · obtain ⟨haccess, hends⟩ : (r.body size dev).1.access = dev.access ∧
          Ends level dev.access false .released (r.body size dev).2 :=
        ends_body size dev r fun st hst => hr ⟨st, hst⟩
      have hup' := hends bus hup
      rw [← haccess] at hup'
      refine ⟨hup', ?_⟩
      cases hon : dev.access with
      | true => exact hup'.odd (haccess.trans hon)
      | false =>
        -- the port is off: the body of `store_flash_access` fails at once
        cases r with
        | accessStore st => exact absurd ⟨st, rfl⟩ hr
        | storeFlashAccess st =>
          dsimp only [Request.body]
          rw [hon]
          exact hodd
        | storeReset | showDevId | showRevId | storeFlashErase | readFlashData | writeFlashData =>
          simp [Request.check, hon] at hcheck

/-! ## The flash -/

/-- The bytes of flash that one request takes lie below `size`. -/
def Request.Within (size : ℕ) : Request → Prop
  | .readFlashData offset count => offset < size ∧ offset + min 128 count ≤ size
  | .writeFlashData offset buffer => offset < size ∧ offset + min 128 buffer.length ≤ size
  | .accessStore _ | .storeReset | .showDevId | .showRevId | .storeFlashAccess _
  | .storeFlashErase => True

instance (size : ℕ) (r : Request) : Decidable (r.Within size) :=
  match r with
  | .readFlashData _ _ | .writeFlashData _ _ => inferInstanceAs (Decidable (_ ∧ _))
  | .accessStore _ | .storeReset | .showDevId | .showRevId | .storeFlashAccess _
  | .storeFlashErase => isTrue trivial

section Within

variable {n size : ℕ}

/-- More flash behind what a request takes does not change it. -/
theorem body_within (hn : n ≤ size) {r : Request} (hr : r.Within n) (dev : C2portDevice) :
    r.body size dev = r.body n dev := by
  cases r with
  | readFlashData offset count =>
    obtain ⟨hoff, hend⟩ := hr
    have hread : min (min 128 (size - offset)) count = min (min 128 (n - offset)) count := by
      omega
    simp only [Request.body, readFlashData, hread, if_neg (Nat.not_le.2 hoff),
      if_neg (Nat.not_le.2 (hoff.trans_le hn))]
  | writeFlashData offset buffer =>
    obtain ⟨hoff, hend⟩ := hr
    have hwrite : min (min 128 buffer.length) (size - offset) =
        min (min 128 buffer.length) (n - offset) := by
      omega
    simp only [Request.body, writeFlashData, hwrite, if_neg (Nat.not_le.2 hoff),
      if_neg (Nat.not_le.2 (hoff.trans_le hn))]
  | accessStore | storeReset | showDevId | showRevId | storeFlashAccess | storeFlashErase => rfl

theorem serveAll_within {σ : Type} (h : Hardware Pin Pin.Answer σ) (hn : n ≤ size)
    {rs : List Request} (hrs : ∀ r ∈ rs, r.Within n) (s : C2portDevice × σ) :
    serveAll h size rs s = serveAll h n rs s := by
  induction rs generalizing s with
  | nil => rfl
  | cons r rs ih =>
    obtain ⟨hr, hrs⟩ := List.forall_mem_cons.1 hrs
    have hserve : r.serve h size s = r.serve h n s := by
      rw [Request.serve, Request.serve, body_within hn hr]
    rw [serveAll, serveAll, hserve]
    dsimp only
    rw [ih hrs]

end Within

/-! ## Both boards -/

/-- Both lines are inputs and the interrupts are on. -/
def Duramar.Off (d : Duramar τ) : Prop :=
  d.dir.getLsbD 0 = false ∧ d.dir.getLsbD 1 = false ∧ d.irqOff = false ∧ d.low = 0 ∧
    d.quiet = false

instance (d : Duramar τ) : Decidable d.Off := inferInstanceAs (Decidable (_ ∧ _))

/-- Both GPIOs are inputs and the interrupts are on. -/
def Efm.Off (e : Efm τ) : Prop :=
  e.c2dIo.out = false ∧ e.c2ckIo.out = false ∧ e.irqOff = false ∧ e.low = 0 ∧ e.quiet = false

instance (e : Efm τ) : Decidable e.Off := inferInstanceAs (Decidable (_ ∧ _))

/-- **The boards agree.** Operations one after the other on flash that both boards have give the
same results on both and lead the target through the same states, and on the Duramar the directions
of all other bits and the levels of the other outputs stay as they are. -/
theorem boards_agree (T : Target τ) (rs : List Request) (d : Duramar τ) (e : Efm τ)
    (hrs : ∀ r ∈ rs, r.Within efmSize) (hd : d.Off) (he : e.Off) (htarget : d.target = e.target) :
    let onDuramar := serveAll (duramar T) duramarSize rs (.init, d)
    let onEfm := serveAll (efm T) efmSize rs (.init, e)
    onDuramar.1 = onEfm.1 ∧ onDuramar.2.2.target = onEfm.2.2.target ∧
      ∀ k, 2 ≤ k → onDuramar.2.2.dir.getLsbD k = d.dir.getLsbD k ∧
        (d.dir.getLsbD k = true → onDuramar.2.2.data.getLsbD k = d.data.getLsbD k) := by
  rw [serveAll_within (duramar T) (by decide) hrs]
  obtain ⟨hd0, hd1, hdirq, hdlow, hdquiet⟩ := hd
  obtain ⟨he0, he1, heirq, helow, hequiet⟩ := he
  let level := fun l => T.level (T.after d.target l)
  let bus : Bus (List Pulse) := ⟨⟨false, d.data.getLsbD 1, .released, false, 0, false, false⟩, []⟩
  have hbad : ∀ i (s : Bus (List Pulse)), s.lines.odd = true →
      (pins (history level) i s).2.lines.odd = true := odd_pins _
  have hJ : ∀ (r : Request) s, NotOdd s → NotOdd (r.serve (pins (history level)) efmSize s).2 :=
    fun r s hs => hs.serve r s
  have hgood : ∀ s, NotOdd s → ¬s.2.lines.odd = true := fun s hs => by simp [hs.2]
  have hbus : NotOdd (.init, bus) := ⟨⟨rfl, nofun, rfl, rfl, nofun, nofun⟩, rfl⟩
  have hrelD : Duramar.Rel d d (bus.lift T d.target) :=
    ⟨hd1, rfl, Duramar.c2d_eq_released.mpr hd0, hdirq, hdlow, hdquiet, rfl, fun _ _ => rfl,
      fun _ _ _ => rfl⟩
  have hrelE : Efm.Rel e (bus.lift T d.target) :=
    ⟨he1, nofun, Efm.c2d_eq_released.mpr he0, heirq, helow, hequiet, htarget.symm⟩
  have honD := serveAll_sim (h := duramar T)
    (R := fun x s => Duramar.Rel d x (s.lift T d.target)) hbad (fun i x s hx => by
      have := Duramar.sim T d i x _ hx
      rwa [pins_lift] at this) hJ hgood rs .init hrelD hbus
  have honE := serveAll_sim (h := efm T)
    (R := fun x s => Efm.Rel x (s.lift T d.target)) hbad (fun i x s hx => by
      have := Efm.sim T i x _ hx
      rwa [pins_lift] at this) hJ hgood rs .init hrelE hbus
  refine ⟨honD.1.trans honE.1.symm, honD.2.target.trans honE.2.target.symm, fun k hk => ?_⟩
  exact ⟨honD.2.dir k hk, honD.2.data k hk⟩

/-- A target that always pulls C2D up. -/
def pulledUp : Target Unit := ⟨fun _ _ => (), fun _ => true⟩

/-- Ports whose upper bits drive something else. -/
def sharedPorts : Duramar Unit := ⟨0xa0, 0xf0, fun _ => 0x0c, 0, false, 0, false, ()⟩

/-- The client board before the port is enabled. -/
def freeGpios : Efm Unit := ⟨⟨false, false⟩, ⟨false, true⟩, false, 0, false, ()⟩

theorem boards_agree_read :
    let rs := [Request.accessStore (some 1), .storeFlashAccess (some 1), .readFlashData 8000 192]
    sharedPorts.Off ∧ freeGpios.Off ∧
      (serveAll (duramar pulledUp) duramarSize rs (.init, sharedPorts)).1 =
        (serveAll (efm pulledUp) efmSize rs (.init, freeGpios)).1 :=
  ⟨by decide, by decide,
    (boards_agree pulledUp _ sharedPorts freeGpios (by decide) (by decide) (by decide) rfl).1⟩

end LddExample.C2port
