import LddExample.C2port.Lines
import Mathlib.Data.Fintype.Basic

/-!
# Frames on the wire

The serial interface of a target, as the fields of the frames describe it: it counts the strobes of
a frame, takes the bits of INS, ADDRESS and DATA from C2D, and shows on C2D the bits it sends and
whether it is ready. Behind it stand its registers, which may do anything and may keep a data frame
waiting for any number of strobes.

* `Registers`, `Iface`, `serial R`: registers, the state of the interface, and the target.
* `Gives T c t p out c' t'`: with the target in `t` and C2D as `c` says, `p` ends with `out` and
  leaves the target in `t'`.
* `gives_writeAr`, `gives_readAr`, `gives_writeDr`, `gives_readDr`: a frame is one access to the
  registers; a data frame fails when the target is not ready within twenty strobes.
* **`frames_exact`**: every sequence of frames does on the wire what the accesses do.
-/

namespace LddExample.C2port

open Interact

/-! ## The target -/

/-- The registers behind the interface. A data access comes with the number of strobes that the
target lets pass before it is ready. -/
structure Registers (ρ : Type) where
  reset : ρ → ρ
  writeAr : UInt8 → ρ → ρ
  readAr : ρ → UInt8 × ρ
  writeDr : UInt8 → ρ → ℕ × ρ
  readDr : ρ → ℕ × UInt8 × ρ

/-- Where in a frame the interface is. -/
inductive Phase
  | idle
  | ins (bits : List Bool)
  | address (bits : List Bool)
  | length (write : Bool) (n : ℕ)
  | data (bits : List Bool)
  /-- strobes to go, and the byte to send then -/
  | wait (left : ℕ) (byte : Option UInt8)
  /-- the bit on the line, and those to come -/
  | send (out : Bool) (rest : List Bool)
  | stop
deriving DecidableEq

/-- The serial interface of the target: the frame that it is in, and its registers. -/
structure Iface (ρ : Type) where
  phase : Phase
  regs : ρ

variable {ρ : Type}

/-- The bits of a byte, lowest first. -/
def bitsLsb : ℕ → UInt8 → List Bool
  | 0, _ => []
  | n + 1, v => (v &&& 0x01 != 0) :: bitsLsb n (v >>> 1)

/-- The byte with the given bits, the lowest one first. -/
def ofBits : List Bool → UInt8
  | [] => 0
  | b :: bits => (if b then 1 else 0) + 2 * ofBits bits

/-- A line that nobody drives is pulled up. -/
def C2d.level : C2d → Bool
  | .driven b => b
  | _ => true

/-- The target shows that it is ready; a byte to send follows. -/
def Phase.ready : Option UInt8 → Phase
  | none => .stop
  | some v => .send true (bitsLsb 8 v)

/-- The interface at a strobe with the level `b` on C2D. -/
def Iface.strobe (R : Registers ρ) (b : Bool) : Iface ρ → Iface ρ
  | ⟨.idle, r⟩ => ⟨.ins [], r⟩
  | ⟨.ins [], r⟩ => ⟨.ins [b], r⟩
  | ⟨.ins (b₀ :: _), r⟩ =>
    -- 11b, 10b, 01b, 00b with the low bit first
    match b₀, b with
    | true, true => ⟨.address [], r⟩
    | false, true =>
      let (v, r) := R.readAr r
      ⟨.send true (bitsLsb 8 v), r⟩
    | true, false => ⟨.length true 0, r⟩
    | false, false => ⟨.length false 0, r⟩
  | ⟨.address bits, r⟩ =>
    let bits := bits ++ [b]
    if bits.length = 8 then ⟨.stop, R.writeAr (ofBits bits) r⟩ else ⟨.address bits, r⟩
  | ⟨.length write 0, r⟩ => ⟨.length write 1, r⟩
  | ⟨.length true (_ + 1), r⟩ => ⟨.data [], r⟩
  | ⟨.length false (_ + 1), r⟩ =>
    let (left, v, r) := R.readDr r
    ⟨.wait left (some v), r⟩
  | ⟨.data bits, r⟩ =>
    let bits := bits ++ [b]
    if bits.length = 8 then
      let (left, r) := R.writeDr (ofBits bits) r
      ⟨.wait left none, r⟩
    else
      ⟨.data bits, r⟩
  | ⟨.wait 0 byte, r⟩ => ⟨Phase.ready byte, r⟩
  | ⟨.wait (left + 1) byte, r⟩ => ⟨.wait left byte, r⟩
  | ⟨.send _ (out :: rest), r⟩ => ⟨.send out rest, r⟩
  | ⟨.send _ [], r⟩ => ⟨.idle, r⟩
  | ⟨.stop, r⟩ => ⟨.idle, r⟩

/-- A long pulse resets the target, a short one is a strobe. -/
def serial (R : Registers ρ) : Target (Iface ρ) where
  pulse p t := if p.low < 20 then t.strobe R p.c2d.level else ⟨.idle, R.reset t.regs⟩
  level t :=
    match t.phase with
    | .send out _ => out
    | .wait _ _ => false
    | _ => true

/-! ## Bytes and bits -/

/-- What the loop of a field that is read does with a bit. -/
def shiftIn (v : UInt8) (b : Bool) : UInt8 := if b then (v >>> 1) ||| 0x80 else v >>> 1

theorem ofBits_bitsLsb (v : UInt8) : ofBits (bitsLsb 8 v) = v := by
  have hall : ∀ n : Fin 256, ofBits (bitsLsb 8 (UInt8.ofFin n)) = UInt8.ofFin n := by
    decide +kernel
  exact hall v.toFin

theorem foldl_shiftIn_bitsLsb (v : UInt8) : (bitsLsb 8 v).foldl shiftIn 0 = v := by
  have hall : ∀ n : Fin 256, (bitsLsb 8 (UInt8.ofFin n)).foldl shiftIn 0 = UInt8.ofFin n := by
    decide +kernel
  exact hall v.toFin

/-! ## Programs and targets -/

variable {τ α β : Type}

/-- The port is on, C2D is as `c` says, and the target is in `t`. -/
structure At (c : C2d) (t : τ) (s : Bus τ) : Prop where
  ckOut : s.lines.ckOut = true
  ck : s.lines.ck = true
  c2d : s.lines.c2d = c
  irq : s.lines.irqOff = false
  target : s.target = t

/-- From target `t` and line `c` the program gives `out` and leaves `t'` and `c'`. -/
def Gives (T : Target τ) (c : C2d) (t : τ) (p : Port α) (out : Except Errno α) (c' : C2d) (t' : τ) :
    Prop :=
  Spec (pins T) (At c t) p fun r s => r = out ∧ At c' t' s

variable {T : Target τ} {c c' c'' : C2d} {t t' t'' : τ}

theorem Gives.bind {p : Port α} {f : α → Port β} {a : α} {out : Except Errno β}
    (hp : Gives T c t p (.ok a) c' t') (hf : Gives T c' t' (f a) out c'' t'') :
    Gives T c t (p >>= f) out c'' t'' := by
  refine Spec.bind hp (fun a' => ?_) ?_
  · rintro s ⟨ha, hs⟩
    obtain rfl := Except.ok.inj ha
    exact hf s hs
  · rintro e s ⟨he, -⟩
    cases he

theorem Gives.bind_error {p : Port α} {f : α → Port β} {e : Errno}
    (hp : Gives T c t p (.error e) c' t') : Gives T c t (p >>= f) (.error e) c' t' := by
  refine Spec.bind hp (fun a => ?_) ?_
  · rintro s ⟨ha, -⟩
    cases ha
  · rintro e' s ⟨he, hs⟩
    cases he
    exact ⟨rfl, hs⟩

theorem Gives.pure (a : α) : Gives T c t (pure a : Port α) (.ok a) c t := fun _ hs => ⟨rfl, hs⟩

/-- A strobe is one short pulse for the target. -/
theorem gives_strobe : Gives T c t c2portStrobeCk (.ok ()) c (T.pulse ⟨1, true, c⟩ t) := by
  rintro ⟨⟨ckOut, ck, c2d, irqOff, low, quiet, odd⟩, target⟩ ⟨rfl, rfl, rfl, rfl, rfl⟩
  exact ⟨rfl, rfl, rfl, rfl, rfl, rfl⟩

theorem gives_reset : Gives T c t c2portReset (.ok ()) c (T.pulse ⟨25, true, c⟩ t) := by
  rintro ⟨⟨ckOut, ck, c2d, irqOff, low, quiet, odd⟩, target⟩ ⟨rfl, rfl, rfl, rfl, rfl⟩
  exact ⟨rfl, rfl, rfl, rfl, rfl, rfl⟩

theorem gives_release : Gives T c t (c2dDir true) (.ok ()) .released t :=
  fun _ hs => ⟨rfl, hs.ckOut, hs.ck, rfl, hs.irq, hs.target⟩

theorem gives_drive : Gives T c t (c2dDir false) (.ok ()) .stale t :=
  fun _ hs => ⟨rfl, hs.ckOut, hs.ck, rfl, hs.irq, hs.target⟩

theorem gives_udelay (us : ℕ) : Gives T c t (udelay us) (.ok ()) c t :=
  fun _ hs => ⟨rfl, hs.ckOut, hs.ck, hs.c2d, hs.irq, hs.target⟩

theorem gives_get : Gives T .released t c2dGet (.ok (T.level t)) .released t := by
  intro s hs
  refine ⟨?_, hs.ckOut, hs.ck, hs.c2d, hs.irq, hs.target⟩
  change Except.ok (match s.lines.c2d with | .driven b => b | _ => T.level s.target) = _
  rw [hs.c2d, hs.target]

theorem gives_sendBit (b : Bool) (hc : c ≠ .released) :
    Gives T c t (sendBit b) (.ok ()) (.driven b) (T.pulse ⟨1, true, .driven b⟩ t) := by
  have hset : Gives T c t (c2dSet b) (.ok ()) (.driven b) t := by
    refine fun s hs => ⟨rfl, hs.ckOut, hs.ck, ?_, hs.irq, hs.target⟩
    change (if s.lines.c2d = .released then C2d.released else .driven b) = .driven b
    rw [hs.c2d, if_neg hc]
  exact hset.bind gives_strobe

/-- The target after bits that the driver sends. -/
def Target.feed (T : Target τ) (t : τ) (bits : List Bool) : τ :=
  bits.foldl (fun t b => T.pulse ⟨1, true, .driven b⟩ t) t

theorem gives_sendBits {f : Unit → Port α} {out : Except Errno α} :
    ∀ (n : ℕ) (v : UInt8) (b : Bool) (t : τ),
      (∀ b, Gives T (.driven b) (T.feed t (bitsLsb n v)) (f ()) out c' t') →
        Gives T (.driven b) t (sendBits n v >>= f) out c' t'
  | 0, _, b, _, hf => hf b
  | n + 1, v, b, t, hf => by
    rw [sendBits, bind_assoc]
    exact (gives_sendBit _ (by simp)).bind (gives_sendBits n (v >>> 1) _ _ hf)

/-! ## Fields -/

variable {R : Registers ρ} {r : ρ}

theorem gives_readBits (out : Bool) (bits : List Bool) (v : UInt8) :
    ∃ out', Gives (serial R) .released ⟨.send out bits, r⟩ (readBits bits.length v)
      (.ok (bits.foldl shiftIn v)) .released ⟨.send out' [], r⟩ := by
  induction bits generalizing out v with
  | nil => exact ⟨out, Gives.pure v⟩
  | cons b bits ih =>
    obtain ⟨out', hrest⟩ := ih b (shiftIn v b)
    refine ⟨out', ?_⟩
    refine gives_strobe.bind (gives_get.bind ?_)
    cases b with
    | true => exact hrest
    | false => exact hrest

/-- The WAIT field: the driver gives up after `timeout` strobes. -/
theorem gives_waitField (byte : Option UInt8) : ∀ (timeout left : ℕ),
    Gives (serial R) .released ⟨.wait left byte, r⟩ (waitField timeout)
      (if left < timeout then .ok () else .error .eio) .released
      ⟨if left < timeout then Phase.ready byte else .wait (left - timeout) byte, r⟩
  | 0, left => fun s hs => ⟨rfl, hs⟩
  | timeout + 1, 0 => by
    refine gives_strobe.bind (gives_get.bind ?_)
    rw [if_pos (Nat.succ_pos _), if_pos (Nat.succ_pos _)]
    cases byte with
    | none => exact Gives.pure ()
    | some v => exact Gives.pure ()
  | timeout + 1, left + 1 => by
    refine gives_strobe.bind (gives_get.bind ((gives_udelay 1).bind ?_))
    have hrest := gives_waitField byte timeout left
    simp only [Nat.add_lt_add_iff_right, Nat.add_sub_add_right]
    exact hrest

/-! ## Frames -/

theorem gives_frame (b b' : Bool) {f : Unit → Port α} {out : Except Errno α} {i : Iface ρ}
    (hf : Gives (serial R) (.driven b') ((serial R).pulse ⟨1, true, .driven b'⟩ ⟨.ins [b], r⟩)
      (f ()) out c' i) :
    Gives (serial R) .released ⟨.idle, r⟩ (c2portStrobeCk >>= fun _ => c2dDir false >>= fun _ =>
      sendBit b >>= fun _ => sendBit b' >>= f) out c' i :=
  gives_strobe.bind <| gives_drive.bind <| (gives_sendBit b (by simp)).bind <|
    (gives_sendBit b' (by simp)).bind hf

theorem gives_writeAr (addr : UInt8) :
    Gives (serial R) .released ⟨.idle, r⟩ (c2portWriteAr addr) (.ok ()) .released
      ⟨.idle, R.writeAr addr r⟩ := by
  refine gives_frame true true (gives_sendBits 8 addr true _ fun b => ?_)
  have hfeed : (serial R).feed ⟨.address [], r⟩ (bitsLsb 8 addr) =
      ⟨.stop, R.writeAr (ofBits (bitsLsb 8 addr)) r⟩ := rfl
  rw [ofBits_bitsLsb] at hfeed
  change Gives _ _ ((serial R).feed ⟨.address [], r⟩ (bitsLsb 8 addr)) _ _ _ _
  rw [hfeed]
  exact gives_release.bind gives_strobe

theorem gives_readAr :
    Gives (serial R) .released ⟨.idle, r⟩ c2portReadAr (.ok (R.readAr r).1) .released
      ⟨.idle, (R.readAr r).2⟩ := by
  refine gives_frame false true (gives_release.bind ?_)
  obtain ⟨out, hread⟩ := @gives_readBits ρ R (R.readAr r).2 true (bitsLsb 8 (R.readAr r).1) 0
  rw [foldl_shiftIn_bitsLsb] at hread
  exact hread.bind (gives_strobe.bind (Gives.pure _))

theorem gives_length (write : Bool) {b : Bool} {f : Unit → Port α} {out : Except Errno α}
    {i : Iface ρ} (hf : Gives (serial R) (.driven false)
      ((serial R).pulse ⟨1, true, .driven false⟩ ⟨.length write 1, r⟩) (f ()) out c' i) :
    Gives (serial R) (.driven b) ⟨.length write 0, r⟩
      (sendBit false >>= fun _ => sendBit false >>= f) out c' i :=
  (gives_sendBit false (by simp)).bind <| (gives_sendBit false (by simp)).bind hf

/-- **A data write.** When the target is not ready in time, it is left in the WAIT field. -/
theorem gives_writeDr (data : UInt8) :
    Gives (serial R) .released ⟨.idle, r⟩ (c2portWriteDr data)
      (if (R.writeDr data r).1 < 20 then .ok () else .error .eio) .released
      ⟨if (R.writeDr data r).1 < 20 then .idle else .wait ((R.writeDr data r).1 - 20) none,
        (R.writeDr data r).2⟩ := by
  refine gives_frame true false (gives_length true (gives_sendBits 8 data false _ fun b => ?_))
  have hfeed : (serial R).feed ⟨.data [], r⟩ (bitsLsb 8 data) =
      ⟨.wait (R.writeDr (ofBits (bitsLsb 8 data)) r).1 none,
        (R.writeDr (ofBits (bitsLsb 8 data)) r).2⟩ := rfl
  rw [ofBits_bitsLsb] at hfeed
  change Gives _ _ ((serial R).feed ⟨.data [], r⟩ (bitsLsb 8 data)) _ _ _ _
  rw [hfeed]
  refine gives_release.bind ?_
  have hwait := @gives_waitField ρ R (R.writeDr data r).2 none 20 (R.writeDr data r).1
  split_ifs at hwait ⊢
  · exact hwait.bind gives_strobe
  · exact hwait.bind_error

/-- **A data read.** -/
theorem gives_readDr :
    Gives (serial R) .released ⟨.idle, r⟩ c2portReadDr
      (if (R.readDr r).1 < 20 then .ok (R.readDr r).2.1 else .error .eio) .released
      ⟨if (R.readDr r).1 < 20 then .idle else .wait ((R.readDr r).1 - 20) (some (R.readDr r).2.1),
        (R.readDr r).2.2⟩ := by
  refine gives_frame false false (gives_length false (gives_release.bind ?_))
  have hwait := @gives_waitField ρ R (R.readDr r).2.2 (some (R.readDr r).2.1) 20 (R.readDr r).1
  split_ifs at hwait ⊢
  · obtain ⟨out, hread⟩ :=
      @gives_readBits ρ R (R.readDr r).2.2 true (bitsLsb 8 (R.readDr r).2.1) 0
    rw [foldl_shiftIn_bitsLsb] at hread
    exact hwait.bind (hread.bind (gives_strobe.bind (Gives.pure _)))
  · exact hwait.bind_error

/-! ## Sequences of frames -/

/-- The four frames of the protocol. -/
inductive Frame
  | writeAr (addr : UInt8)
  | readAr
  | writeDr (data : UInt8)
  | readDr
deriving DecidableEq

/-- What the driver does for a frame, with the byte it has read. -/
def Frame.send : Frame → Port (Option UInt8)
  | .writeAr addr => do c2portWriteAr addr; pure none
  | .readAr => some <$> c2portReadAr
  | .writeDr data => do c2portWriteDr data; pure none
  | .readDr => some <$> c2portReadDr

/-- The access to the registers. -/
def Frame.act (R : Registers ρ) : Frame → ρ → Except Errno (Option UInt8) × ρ
  | .writeAr addr, r => (.ok none, R.writeAr addr r)
  | .readAr, r => (.ok (some (R.readAr r).1), (R.readAr r).2)
  | .writeDr data, r =>
    (if (R.writeDr data r).1 < 20 then .ok none else .error .eio, (R.writeDr data r).2)
  | .readDr, r =>
    (if (R.readDr r).1 < 20 then .ok (some (R.readDr r).2.1) else .error .eio, (R.readDr r).2.2)

/-- Frames one after the other, up to the first that fails. -/
def sendAll : List Frame → Port (List (Option UInt8))
  | [] => pure []
  | fr :: frs => do
    let v ← fr.send
    let vs ← sendAll frs
    pure (v :: vs)

/-- The answers of the registers to a sequence of frames. -/
def actAll (R : Registers ρ) : List Frame → ρ → Except Errno (List (Option UInt8)) × ρ
  | [], r => (.ok [], r)
  | fr :: frs, r =>
    match fr.act R r with
    | (.error e, r) => (.error e, r)
    | (.ok v, r) => ((actAll R frs r).1.map (v :: ·), (actAll R frs r).2)

theorem Gives.map {p : Port α} {out : Except Errno α} (f : α → β) (hp : Gives T c t p out c' t') :
    Gives T c t (f <$> p) (out.map f) c' t' := by
  cases out with
  | ok a => exact hp.bind (Gives.pure (f a))
  | error e => exact hp.bind_error

/-- **A frame is an access**, and leaves the interface idle unless it fails. -/
theorem gives_send (R : Registers ρ) (fr : Frame) (r : ρ) :
    ∃ phase, Gives (serial R) .released ⟨.idle, r⟩ fr.send (fr.act R r).1 .released
      ⟨phase, (fr.act R r).2⟩ ∧ (∀ v, (fr.act R r).1 = .ok v → phase = .idle) := by
  cases fr with
  | writeAr addr => exact ⟨_, (gives_writeAr addr).bind (Gives.pure none), fun _ _ => rfl⟩
  | readAr => exact ⟨_, gives_readAr.map some, fun _ _ => rfl⟩
  | writeDr data =>
    have hwrite := (@gives_writeDr ρ R r data).map fun _ => (none : Option UInt8)
    dsimp only [Frame.act]
    split_ifs at hwrite ⊢
    · exact ⟨_, hwrite, fun _ _ => rfl⟩
    · exact ⟨_, hwrite, nofun⟩
  | readDr =>
    have hread := (@gives_readDr ρ R r).map some
    dsimp only [Frame.act]
    split_ifs at hread ⊢
    · exact ⟨_, hread, fun _ _ => rfl⟩
    · exact ⟨_, hread, nofun⟩

theorem gives_sendAll (R : Registers ρ) (frs : List Frame) (r : ρ) :
    ∃ phase, Gives (serial R) .released ⟨.idle, r⟩ (sendAll frs) (actAll R frs r).1 .released
      ⟨phase, (actAll R frs r).2⟩ ∧ (∀ vs, (actAll R frs r).1 = .ok vs → phase = .idle) := by
  induction frs generalizing r with
  | nil => exact ⟨.idle, Gives.pure [], fun _ _ => rfl⟩
  | cons fr frs ih =>
    obtain ⟨phase, hsend, hidle⟩ := gives_send R fr r
    rw [actAll]
    cases hact : fr.act R r with
    | mk out r' =>
      rw [hact] at hsend hidle
      cases out with
      | error e => exact ⟨phase, hsend.bind_error, nofun⟩
      | ok v =>
        obtain rfl : phase = .idle := hidle v rfl
        obtain ⟨phase', hrest, hidle'⟩ := ih r'
        refine ⟨phase', hsend.bind (hrest.map (v :: ·)), fun vs hvs => ?_⟩
        cases hrest' : (actAll R frs r').1 with
        | ok vs' => exact hidle' vs' hrest'
        | error e =>
          change (actAll R frs r').1.map (v :: ·) = .ok vs at hvs
          rw [hrest'] at hvs
          cases hvs

/-- **Frames are accesses to the registers.** On the lines at rest, with the target idle, any frames
give what the accesses give, bit by bit over the wire, up to the first data frame that the target
keeps waiting for twenty strobes or more; while none does, the interface is idle again at the
end. -/
theorem frames_exact (R : Registers ρ) (frs : List Frame) (r : ρ) (s : Bus (Iface ρ))
    (hs : At .released ⟨.idle, r⟩ s) :
    let after := run (pins (serial R)) (sendAll frs) s
    after.1 = (actAll R frs r).1 ∧ after.2.target.regs = (actAll R frs r).2 ∧
      ∀ vs, after.1 = .ok vs → At .released ⟨.idle, (actAll R frs r).2⟩ after.2 := by
  obtain ⟨phase, hsend, hidle⟩ := gives_sendAll R frs r
  obtain ⟨hout, hat⟩ := hsend s hs
  refine ⟨hout, by rw [hat.target], fun vs hvs => ?_⟩
  rw [← hidle vs (hout.symm.trans hvs)]
  exact hat

/-- A target with one register per address that is ready at once. -/
def plainRegisters : Registers (UInt8 × (UInt8 → UInt8)) where
  reset r := r
  writeAr addr r := (addr, r.2)
  readAr r := (0x00, r)
  writeDr data r := (0, r.1, fun a => if a = r.1 then data else r.2 a)
  readDr r := (0, r.2 r.1, r)

theorem frames_exact_write_read :
    (run (pins (serial plainRegisters)) (sendAll [.writeAr 0xb4, .writeDr 0x5a, .readDr])
      ⟨⟨true, true, .released, false, 0, false, false⟩, ⟨.idle, (0, fun _ => 0)⟩⟩).1 =
        .ok [none, none, some 0x5a] :=
  (frames_exact plainRegisters _ (0, fun _ => 0) _ ⟨rfl, rfl, rfl, rfl, rfl⟩).1

end LddExample.C2port
