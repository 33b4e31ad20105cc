import LddExample.C2port.Model
import LddExample.Lib.Lts

/-!
# The two lines between the driver and its target

The lines as the target sees them: a low pulse of C2CK is a clock strobe or, when it is long, a
reset. The driver has to keep the pulses short with the interrupts off, to drive C2D only where the
frame says so, and to leave both lines alone while the access is off.

* `Lines`, `Target`, `pins`: the lines, an arbitrary target, and what an operation does to them. The
  flag `odd` records the operations on which two boards need not agree: a clock edge or a sample
  while nothing was put on the driven data line, or data for a port that is off.
* `Up on odd c s`: between two strobes the clock is high, the interrupts are on and the driver does
  with C2D what `c` says; every pulse so far was clean.
* `Up.…`: every program of the driver keeps the lines so, whatever the target answers.
* **`lines_at_rest`**: in every interleaving of file operations, which are checked before they take
  the mutex, every pulse is clean and the lines are at rest between the operations.
-/

namespace LddExample.C2port

open Interact

/-! ## Lines and target -/

/-- What the driver does with the data line. -/
inductive C2d
  | released
  /-- an output on which nothing was set yet -/
  | stale
  | driven (b : Bool)
deriving DecidableEq

/-- A low pulse on C2CK: how long it was, whether the interrupts were off, and C2D at its end. -/
structure Pulse where
  low : ℕ
  quiet : Bool
  c2d : C2d
deriving DecidableEq

/-- The two lines as the driver leaves them. -/
structure Lines where
  /-- C2CK is an output -/
  ckOut : Bool
  ck : Bool
  c2d : C2d
  irqOff : Bool
  /-- microseconds since C2CK was set low -/
  low : ℕ
  /-- the interrupts are off since C2CK was set low -/
  quiet : Bool
  odd : Bool
deriving DecidableEq

/-- A target with states `τ`: it moves with every pulse and shows a level on C2D. -/
structure Target (τ : Type) where
  pulse : Pulse → τ → τ
  level : τ → Bool

/-- The lines with a target at their other end. -/
structure Bus (τ : Type) where
  lines : Lines
  target : τ

variable {τ : Type}

/-- C2CK is set high: an edge for the target when the line is driven and was low. -/
def Bus.rise (T : Target τ) (s : Bus τ) : Bus τ :=
  if s.lines.ckOut && !s.lines.ck then
    ⟨{ s.lines with ck := true, odd := s.lines.odd || s.lines.c2d == .stale },
      T.pulse ⟨s.lines.low, s.lines.quiet, s.lines.c2d⟩ s.target⟩
  else
    { s with lines := { s.lines with ck := true } }

/-- The operations on the lines. -/
def pins (T : Target τ) : Hardware Pin Pin.Answer (Bus τ)
  | .access true, s =>
    ((), { s with lines := { s.lines with
      ckOut := true, c2d := .stale, odd := s.lines.odd || !s.lines.ck } })
  | .access false, s => ((), { s with lines := { s.lines with ckOut := false, c2d := .released } })
  | .c2dDir true, s => ((), { s with lines := { s.lines with c2d := .released } })
  | .c2dDir false, s => ((), { s with lines := { s.lines with c2d := .stale } })
  | .c2dGet, s =>
    (match s.lines.c2d with
      | .driven b => b
      | _ => T.level s.target,
      { s with lines := { s.lines with odd := s.lines.odd || s.lines.c2d == .stale } })
  | .c2dSet b, s =>
    ((), { s with lines := { s.lines with
      c2d := if s.lines.c2d = .released then .released else .driven b
      odd := s.lines.odd || !s.lines.ckOut } })
  | .c2ckSet true, s => ((), s.rise T)
  | .c2ckSet false, s =>
    ((), { s with lines := { s.lines with ck := false, low := 0, quiet := s.lines.irqOff } })
  | .udelay us, s => ((), { s with lines := { s.lines with low := s.lines.low + us } })
  | .localIrqDisable, s => ((), { s with lines := { s.lines with irqOff := true } })
  | .localIrqEnable, s => ((), { s with lines := { s.lines with irqOff := false, quiet := false } })

/-- A target that goes by all pulses so far. -/
def history (level : List Pulse → Bool) : Target (List Pulse) := ⟨fun p l => l ++ [p], level⟩

/-- A strobe is shorter than 5 µs, a reset longer than 20 µs, and no interrupt can stretch them. -/
def Pulse.Clean (p : Pulse) : Prop := p.quiet = true ∧ (p.low < 5 ∨ 20 < p.low) ∧ p.c2d ≠ .stale

/-! ## Between two strobes -/

/-- The port is on as `on` says and C2D is as `c` says. -/
structure Up (on odd : Bool) (c : C2d) (s : Bus (List Pulse)) : Prop where
  ckOut : s.lines.ckOut = on
  ck : on = true → s.lines.ck = true
  c2d : s.lines.c2d = c
  irq : s.lines.irqOff = false
  odd : on = true → s.lines.odd = odd
  clean : ∀ p ∈ s.target, p.Clean

/-- The program leaves C2D released, also when it fails. -/
def Ends {α : Type} (level : List Pulse → Bool) (on odd : Bool) (c : C2d) (p : Port α) : Prop :=
  Spec (pins (history level)) (Up on odd c) p fun _ s => Up on odd .released s

/-- The program does not fail and leaves C2D as `c'` says. -/
def Moves {α : Type} (level : List Pulse → Bool) (on odd : Bool) (c c' : C2d) (p : Port α) : Prop :=
  Spec (pins (history level)) (Up on odd c) p fun r s => (∃ a, r = .ok a) ∧ Up on odd c' s

variable {level : List Pulse → Bool} {on odd : Bool} {c c' : C2d} {α β : Type}

theorem Moves.bind {c'' : C2d} {p : Port α} {f : α → Port β} (hp : Moves level on odd c c' p)
    (hf : ∀ a, Moves level on odd c' c'' (f a)) : Moves level on odd c c'' (p >>= f) := by
  refine Spec.bind hp (fun a => ?_) ?_
  · exact (hf a).weaken (fun s hs => hs.2) fun _ _ h => h
  · rintro e s ⟨⟨a, ha⟩, -⟩
    cases ha

theorem Moves.bind_ends {p : Port α} {f : α → Port β} (hp : Moves level on odd c c' p)
    (hf : ∀ a, Ends level on odd c' (f a)) : Ends level on odd c (p >>= f) := by
  refine Spec.bind hp (fun a => ?_) ?_
  · exact (hf a).weaken (fun s hs => hs.2) fun _ _ h => h
  · rintro e s ⟨⟨a, ha⟩, -⟩
    cases ha

theorem Moves.ends {p : Port α} (hp : Moves level on odd c .released p) : Ends level on odd c p :=
  hp.weaken (fun _ hs => hs) fun _ _ h => h.2

theorem Ends.bind {p : Port α} {f : α → Port β} (hp : Ends level on odd c p)
    (hf : ∀ a, Ends level on odd .released (f a)) : Ends level on odd c (p >>= f) :=
  Spec.bind hp (fun a => hf a) fun _ _ h => h

theorem Ends.pure (a : α) : Ends level on odd .released (pure a : Port α) := fun _ hs => hs

theorem Ends.fail (e : Errno) : Ends level on odd .released (.fail e : Port α) := fun _ hs => hs

theorem Ends.map {p : Port α} (f : α → β) (hp : Ends level on odd c p) :
    Ends level on odd c (f <$> p) :=
  hp.bind fun a => Ends.pure (f a)

theorem Ends.attempt {p : Port α} (hp : Ends level on odd c p) :
    Ends level on odd c (p.attempt : Port (Except Errno α)) :=
  (Spec.attempt hp).weaken (fun _ hs => hs) fun _ _ ⟨_, _, h⟩ => h

/-! ## One pulse -/

/-- **A low pulse is clean** when its length is, as long as the driven data line was set. -/
theorem moves_lowFor {us : ℕ} (hus : us < 5 ∨ 20 < us) (hc : c ≠ .stale) :
    Moves level on odd c c (lowFor us) := by
  rintro ⟨⟨ckOut, ck, c2d, irqOff, low, quiet, odd'⟩, target⟩ hs
  obtain ⟨rfl, hck, rfl, rfl, hodd, hclean⟩ := hs
  refine ⟨⟨(), rfl⟩, ?_⟩
  cases ckOut with
  | false => exact ⟨rfl, nofun, rfl, rfl, nofun, hclean⟩
  | true =>
    refine ⟨rfl, fun _ => rfl, rfl, rfl, fun _ => ?_, ?_⟩
    · change (odd' || c2d == .stale) = odd
      rw [show odd' = odd from hodd rfl, beq_false_of_ne hc, Bool.or_false]
    · intro p hp
      change p ∈ target ++ [⟨0 + us, true, c2d⟩] at hp
      rw [List.mem_append, List.mem_singleton] at hp
      obtain hp | rfl := hp
      · exact hclean p hp
      · exact ⟨rfl, by rwa [Nat.zero_add], hc⟩

theorem moves_strobe (hc : c ≠ .stale) : Moves level on odd c c c2portStrobeCk :=
  moves_lowFor (.inl (by decide)) hc

theorem moves_reset : Moves level on odd .released .released c2portReset :=
  moves_lowFor (.inr (by decide)) (by simp)

theorem moves_perform {i : Pin}
    (hi : ∀ s, Up on odd c s → Up on odd c' (pins (history level) i s).2) :
    Moves level on odd c c' (.perform i : Port (Pin.Answer i)) :=
  fun s hs => ⟨⟨_, rfl⟩, hi s hs⟩

theorem moves_release : Moves level on odd c .released (c2dDir true) :=
  moves_perform fun _ hs => ⟨hs.ckOut, hs.ck, rfl, hs.irq, hs.odd, hs.clean⟩

theorem moves_drive : Moves level on odd c .stale (c2dDir false) :=
  moves_perform fun _ hs => ⟨hs.ckOut, hs.ck, rfl, hs.irq, hs.odd, hs.clean⟩

theorem moves_udelay (us : ℕ) : Moves level on odd c c (udelay us) :=
  moves_perform fun _ hs => ⟨hs.ckOut, hs.ck, hs.c2d, hs.irq, hs.odd, hs.clean⟩

/-- A sample is taken while the line is released. -/
theorem moves_get : Moves level on odd .released .released c2dGet := by
  refine moves_perform fun s hs => ⟨hs.ckOut, hs.ck, hs.c2d, hs.irq, fun h => ?_, hs.clean⟩
  change (s.lines.odd || s.lines.c2d == .stale) = odd
  rw [hs.c2d, hs.odd h]
  exact Bool.or_false odd

theorem moves_sendBit (b : Bool) (hc : c ≠ .released) :
    Moves level on odd c (.driven b) (sendBit b) := by
  have hset : Moves level on odd c (.driven b) (c2dSet b) := by
    refine moves_perform fun s hs => ⟨hs.ckOut, hs.ck, ?_, hs.irq, fun h => ?_, hs.clean⟩
    · change (if s.lines.c2d = .released then C2d.released else .driven b) = .driven b
      rw [hs.c2d, if_neg hc]
    · change (s.lines.odd || !s.lines.ckOut) = odd
      rw [hs.odd h, hs.ckOut, h]
      exact Bool.or_false odd
  exact hset.bind fun _ => moves_strobe (by simp)

/-! ## Frames -/

theorem ends_sendBits {f : Unit → Port α} (hf : ∀ b, Ends level on odd (.driven b) (f ())) :
    ∀ (n : ℕ) (v : UInt8) (b : Bool), Ends level on odd (.driven b) (sendBits n v >>= f)
  | 0, _, b => hf b
  | n + 1, v, b => by
    rw [sendBits, bind_assoc]
    exact (moves_sendBit _ (by simp)).bind_ends fun _ => ends_sendBits hf n (v >>> 1) _

theorem moves_readBits : ∀ (n : ℕ) (v : UInt8),
    Moves level on odd .released .released (readBits n v)
  | 0, v => fun _ hs => ⟨⟨v, rfl⟩, hs⟩
  | n + 1, v => by
    refine (moves_strobe (by simp)).bind fun _ => moves_get.bind fun b => ?_
    cases b with
    | true => exact moves_readBits n _
    | false => exact moves_readBits n _

theorem ends_waitField : ∀ timeout : ℕ, Ends level on odd .released (waitField timeout)
  | 0 => Ends.fail _
  | timeout + 1 => by
    refine (moves_strobe (by simp)).bind_ends fun _ => moves_get.bind_ends fun b => ?_
    cases b with
    | true => exact Ends.pure _
    | false => exact (moves_udelay 1).bind_ends fun _ => ends_waitField timeout

theorem ends_frame (b b' : Bool) {f : Unit → Port α}
    (hf : Ends level on odd (.driven b') (f ())) :
    Ends level on odd .released (c2portStrobeCk >>= fun _ => c2dDir false >>= fun _ =>
      sendBit b >>= fun _ => sendBit b' >>= f) :=
  (moves_strobe (by simp)).bind_ends fun _ => moves_drive.bind_ends fun _ =>
    (moves_sendBit b (by simp)).bind_ends fun _ =>
      (moves_sendBit b' (by simp)).bind_ends fun _ => hf

theorem ends_stop (a : α) :
    Ends level on odd .released (c2portStrobeCk >>= fun _ => pure a : Port α) :=
  (moves_strobe (by simp)).bind_ends fun _ => Ends.pure a

theorem ends_writeAr (addr : UInt8) : Ends level on odd .released (c2portWriteAr addr) :=
  ends_frame true true <| ends_sendBits (fun _ => moves_release.bind_ends fun _ =>
    (moves_strobe (by simp)).ends) 8 addr true

theorem ends_readAr : Ends level on odd .released c2portReadAr :=
  ends_frame false true <| moves_release.bind_ends fun _ =>
    (moves_readBits 8 0).bind_ends fun addr => ends_stop addr

theorem ends_length {b : Bool} {f : Unit → Port α} (hf : Ends level on odd (.driven false) (f ())) :
    Ends level on odd (.driven b) (sendBit false >>= fun _ => sendBit false >>= f) :=
  (moves_sendBit false (by simp)).bind_ends fun _ =>
    (moves_sendBit false (by simp)).bind_ends fun _ => hf

theorem ends_writeDr (data : UInt8) : Ends level on odd .released (c2portWriteDr data) :=
  ends_frame true false <| ends_length <| ends_sendBits (fun _ => moves_release.bind_ends fun _ =>
    (ends_waitField 20).bind fun _ => (moves_strobe (by simp)).ends) 8 data false

theorem ends_readDr : Ends level on odd .released c2portReadDr :=
  ends_frame false false <| ends_length <| moves_release.bind_ends fun _ =>
    (ends_waitField 20).bind fun _ => (moves_readBits 8 0).bind_ends fun data => ends_stop data

/-! ## Sequences of frames -/

theorem ends_pollAr (done : UInt8 → Bool) :
    ∀ timeout : ℕ, Ends level on odd .released (pollAr done timeout)
  | 0 => Ends.fail _
  | timeout + 1 => by
    refine ends_readAr.bind fun addr => ?_
    split_ifs
    · exact Ends.pure _
    · exact (moves_udelay 1).bind_ends fun _ => ends_pollAr done timeout

theorem ends_sendByte (data : UInt8) : Ends level on odd .released (sendByte data) :=
  (ends_writeDr data).attempt.bind fun _ => ends_pollAr _ _

theorem ends_readStatus : Ends level on odd .released readStatus := by
  refine (ends_pollAr _ _).bind fun _ => ends_readDr.bind fun status => ?_
  split_ifs
  · exact Ends.fail _
  · exact Ends.pure _

theorem ends_sendCommand (command : UInt8) : Ends level on odd .released (sendCommand command) :=
  (ends_writeAr _).bind fun _ => (ends_sendByte command).bind fun _ => ends_readStatus

theorem ends_sendBlock (offset n : ℕ) : Ends level on odd .released (sendBlock offset n) :=
  (ends_sendByte _).bind fun _ => (ends_sendByte _).bind fun _ => (ends_sendByte _).bind fun _ =>
    ends_readStatus

theorem ends_readBlock : ∀ n : ℕ, Ends level on odd .released (readBlock n)
  | 0 => Ends.pure _
  | n + 1 => (ends_pollAr _ _).bind fun _ => ends_readDr.bind fun _ =>
    (ends_readBlock n).bind fun _ => Ends.pure _

theorem ends_writeBlock : ∀ bs : List UInt8, Ends level on odd .released (writeBlock bs)
  | [] => Ends.pure _
  | b :: bs => (ends_writeDr b).bind fun _ => (ends_pollAr _ _).bind fun _ => ends_writeBlock bs

theorem ends_storeFlashAccess : Ends level on odd .released storeFlashAccess :=
  (ends_writeAr _).bind fun _ => (ends_writeDr _).bind fun _ => (ends_writeDr _).bind fun _ =>
    (moves_udelay _).ends

theorem ends_writeFlashErase : Ends level on odd .released writeFlashErase :=
  (ends_sendCommand _).bind fun _ => (ends_sendByte _).bind fun _ => (ends_sendByte _).bind fun _ =>
    (ends_sendByte _).bind fun _ => ends_pollAr _ _

theorem ends_readFlashData (size offset count : ℕ) :
    Ends level on odd .released (readFlashData size offset count) := by
  dsimp only [readFlashData]
  split_ifs
  · exact Ends.pure _
  · exact Ends.pure _
  · exact (ends_sendCommand _).bind fun _ => (ends_sendBlock _ _).bind fun _ => ends_readBlock _

theorem ends_writeFlashData (size offset : ℕ) (buffer : List UInt8) :
    Ends level on odd .released (writeFlashData size offset buffer) := by
  dsimp only [writeFlashData]
  split_ifs
  · exact Ends.fail _
  · exact (ends_sendCommand _).bind fun _ => (ends_sendBlock _ _).bind fun _ =>
      (ends_writeBlock _).bind fun _ => (ends_pollAr _ _).bind fun _ => Ends.pure _

/-! ## File operations -/

theorem up_accessStore (status : Option ℤ) (size : ℕ) (dev : C2portDevice) {s : Bus (List Pulse)}
    (hs : Up on odd .released s) :
    let s' := (run (pins (history level)) (Request.body size dev (.accessStore status)).2 s).2
    Up (status.getD 0 != 0) s.lines.odd .released s' ∧ s'.lines.odd = s.lines.odd := by
  obtain ⟨⟨ckOut, ck, c2d, irqOff, low, quiet, odd'⟩, target⟩ := s
  obtain ⟨rfl, hck, rfl, rfl, -, hclean⟩ := hs
  dsimp only [Request.body]
  cases status.getD 0 != 0 with
  | false => exact ⟨⟨rfl, nofun, rfl, rfl, nofun, hclean⟩, rfl⟩
  | true =>
    have hodd : (odd' || false) = odd' := Bool.or_false odd'
    -- the clock is set high while the line is off, or high already: no edge
    cases ckOut with
    | false => exact ⟨⟨rfl, fun _ => rfl, rfl, rfl, fun _ => hodd, hclean⟩, hodd⟩
    | true =>
      obtain rfl : ck = true := hck rfl
      exact ⟨⟨rfl, fun _ => rfl, rfl, rfl, fun _ => hodd, hclean⟩, hodd⟩

/-- The other operations do not change whether the port is on. -/
theorem ends_body (size : ℕ) (dev : C2portDevice) (r : Request) (hr : ∀ st, r ≠ .accessStore st) :
    (r.body size dev).1.access = dev.access ∧
      Ends level on odd .released (r.body size dev).2 := by
  cases r with
  | accessStore st => exact absurd rfl (hr st)
  | storeReset => exact ⟨rfl, moves_reset.bind_ends fun _ => Ends.pure _⟩
  | showDevId => exact ⟨rfl, ((ends_writeAr _).bind fun _ => ends_readDr).map _⟩
  | showRevId => exact ⟨rfl, ((ends_writeAr _).bind fun _ => ends_readDr).map _⟩
  | storeFlashAccess status =>
    obtain ⟨access, flashAccess⟩ := dev
    cases access with
    | false => exact ⟨rfl, Ends.fail _⟩
    | true =>
      refine ⟨rfl, ?_⟩
      dsimp only [Request.body]
      cases status.getD 0 != 0 with
      | false => exact Ends.pure _
      | true => exact ends_storeFlashAccess.bind fun _ => Ends.pure _
  | storeFlashErase => exact ⟨rfl, ends_writeFlashErase.bind fun _ => Ends.pure _⟩
  | readFlashData offset count => exact ⟨rfl, (ends_readFlashData _ _ _).map _⟩
  | writeFlashData offset buffer => exact ⟨rfl, (ends_writeFlashData _ _ _).map _⟩

/-! ## Interleavings -/

/-- The device, its lines, and the callers that have passed their checks and wait for the mutex. -/
structure Sys where
  dev : C2portDevice
  bus : Bus (List Pulse)
  waiting : List Request

/-- The two parts of a file operation: its check of `access`, and its body under the mutex. -/
inductive SysAct
  | check (r : Request)
  | body (r : Request)

/-- `c2port_device_register` has turned the access off. -/
def Sys.init (ck : Bool) : Sys :=
  ⟨.init, ⟨⟨false, ck, .released, false, 0, false, false⟩, []⟩, []⟩

/-- A caller does its checks, or what stands between `mutex_lock` and `mutex_unlock`. -/
def sysStep (level : List Pulse → Bool) (size : ℕ) (s : Sys) : SysAct → Option Sys
  | .check r =>
    match r.check s.dev with
    | .ok _ => some { s with waiting := r :: s.waiting }
    | .error _ => some s
  | .body r =>
    if r ∈ s.waiting then
      some ⟨(r.body size s.dev).1, (run (pins (history level)) (r.body size s.dev).2 s.bus).2,
        s.waiting.erase r⟩
    else
      none

/-- C2CK is an output exactly when the access is on, and then high; C2D is an input; the interrupts
are on. -/
structure Sys.AtRest (s : Sys) : Prop where
  ckOut : s.bus.lines.ckOut = s.dev.access
  ck : s.dev.access = true → s.bus.lines.ck = true
  c2d : s.bus.lines.c2d = .released
  irq : s.bus.lines.irqOff = false

theorem up_step {size : ℕ} {s s' : Sys} {a : SysAct} (h : sysStep level size s a = some s')
    (hs : ∃ odd, Up s.dev.access odd .released s.bus) :
    ∃ odd, Up s'.dev.access odd .released s'.bus := by
  obtain ⟨odd, hup⟩ := hs
  cases a with
  | check r =>
    dsimp only [sysStep] at h
    split at h
    · cases h
      exact ⟨odd, hup⟩
    · cases h
      exact ⟨odd, hup⟩
  | body r =>
    dsimp only [sysStep] at h
    split_ifs at h
    cases h
    by_cases hr : ∃ st, r = .accessStore st
    · obtain ⟨st, rfl⟩ := hr
      exact ⟨_, (up_accessStore st size s.dev hup).1⟩
    · obtain ⟨haccess, hends⟩ : (r.body size s.dev).1.access = s.dev.access ∧
          Ends level s.dev.access odd .released (r.body size s.dev).2 :=
        ends_body size s.dev r fun st hst => hr ⟨st, hst⟩
      refine ⟨odd, ?_⟩
      change Up (r.body size s.dev).1.access odd .released _
      rw [haccess]
      exact hends s.bus hup

/-- **The lines in every interleaving.** Whatever the target answers and however the callers
overtake each other between their checks and the mutex, every pulse on C2CK is a clean strobe or
reset, and the lines are at rest when the mutex is free. -/
theorem lines_at_rest (level : List Pulse → Bool) (size : ℕ) (ck : Bool) (l : List SysAct) (s : Sys)
    (h : Lts.exec (sysStep level size) (.init ck) l = some s) :
    s.AtRest ∧ ∀ p ∈ s.bus.target, p.Clean := by
  have hinit : ∃ odd, Up (Sys.init ck).dev.access odd .released (Sys.init ck).bus :=
    ⟨false, rfl, nofun, rfl, rfl, nofun, nofun⟩
  obtain ⟨odd, hup⟩ := Lts.exec_inv (I := fun s => ∃ odd, Up s.dev.access odd .released s.bus)
    (fun s a s' hs ha => up_step ha hs) hinit h
  exact ⟨⟨hup.ckOut, hup.ck, hup.c2d, hup.irq⟩, hup.clean⟩

/-- A caller is overtaken by one that turns the access off. -/
def overtaken : List SysAct :=
  [.check (.accessStore (some 1)), .body (.accessStore (some 1)), .check .showDevId,
    .check (.accessStore (some 0)), .body (.accessStore (some 0)), .body .showDevId]

theorem lines_at_rest_overtaken :
    ∃ s, Lts.exec (sysStep (fun _ => true) 8192) (.init true) overtaken = some s ∧
      s.AtRest ∧ ∀ p ∈ s.bus.target, p.Clean :=
  ⟨_, rfl, lines_at_rest (fun _ => true) 8192 true overtaken _ rfl⟩

end LddExample.C2port
