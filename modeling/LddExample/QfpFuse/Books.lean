import LddExample.QfpFuse.Model

/-!
# What a session holds and touches

The account of a session: the semaphore, the allocated memory, the regulator, and the words of the
PROM that were read and written. Every answer of the hardware, of the allocator and of the process
is possible.

* `Books`, `Books.enter`: the account, and how an action with its answer is entered.
* `Word`: what the account says of one call of `qfp_fuse_write_word`, `accounts_writeWord`.
* `accounts_readLoop`, `accounts_writeLoop`: the two loops.
* **`session_balanced`**: the semaphore is up after every session; the memory is given back unless
  `regulator_get` failed in `open`; the regulator is on once for each `regulator_disable` that
  failed.
-/

namespace LddExample.QfpFuse

open Interact

/-- What the driver holds, and what it has touched, read and written. -/
structure Books where
  held : Bool
  blocks : ℤ
  regulators : ℤ
  supply : ℤ
  /-- how often `regulator_disable` failed -/
  jammed : ℤ
  touched : List UInt32
  written : List UInt32
  /-- what was read of a word since it was last written -/
  seen : List (UInt32 × UInt32)
  /-- the last request, and the words that came with it -/
  req : Option Req
  data : Option (ℕ → UInt32)
  /-- what was last handed to `copy_to_user` -/
  out : Option (UInt32 × List UInt32)

/-- An action and its answer. -/
def Books.enter : (i : Io) → i.Answer → Books → Books
  | .readl addr, v, b =>
    { b with touched := addr :: b.touched, seen := (addr, v) :: b.seen }
  | .writel _ addr, _, b =>
    { b with
      touched := addr :: b.touched
      written := addr :: b.written
      seen := b.seen.filter fun x => x.1 ≠ addr }
  | .regulatorGet, true, b => { b with regulators := b.regulators + 1 }
  | .regulatorPut, _, b => { b with regulators := b.regulators - 1 }
  | .regulatorEnable, true, b => { b with supply := b.supply + 1 }
  | .regulatorDisable, true, b => { b with supply := b.supply - 1 }
  | .regulatorDisable, false, b => { b with jammed := b.jammed + 1 }
  | .kmalloc, true, b => { b with blocks := b.blocks + 1 }
  | .kzalloc _, true, b => { b with blocks := b.blocks + 1 }
  | .kfree, _, b => { b with blocks := b.blocks - 1 }
  | .downInterruptible, true, b => { b with held := true }
  | .up, _, b => { b with held := false }
  | .copyReq _, req, b => { b with req := req }
  | .copyIn .., data, b => { b with data := data }
  | .copyOut data buf, _, b => { b with out := some (data, buf) }
  | .regulatorGet, false, b | .regulatorEnable, false, b | .kmalloc, false, b
  | .kzalloc _, false, b | .downInterruptible, false, b | .msleep _, _, b | .udelay _, _, b => b

/-! ## Frames -/

/-- The accounts agree on what is held. -/
structure SameHold (b b' : Books) : Prop where
  held : b'.held = b.held
  blocks : b'.blocks = b.blocks
  regulators : b'.regulators = b.regulators
  req : b'.req = b.req
  data : b'.data = b.data
  out : b'.out = b.out

/-- Nothing is touched but words in `T`, nothing is written but words in `W`, and what was seen of
the other words is kept. -/
structure Touch (T W : UInt32 → Prop) (b b' : Books) : Prop where
  hold : SameHold b b'
  kept : ∀ a ∈ b.touched, a ∈ b'.touched
  touched : ∀ a ∈ b'.touched, a ∈ b.touched ∨ T a
  written : ∀ a ∈ b'.written, a ∈ b.written ∨ W a
  seen : ∀ x ∈ b.seen, ¬W x.1 → x ∈ b'.seen

namespace Touch

variable {T W T' W' : UInt32 → Prop} {b b₁ b₂ : Books}

theorem refl (b : Books) : Touch T W b b :=
  ⟨⟨rfl, rfl, rfl, rfl, rfl, rfl⟩, fun _ => id, fun _ => .inl, fun _ => .inl, fun _ hx _ => hx⟩

theorem trans (h : Touch T W b b₁) (h' : Touch T W b₁ b₂) : Touch T W b b₂ where
  hold := ⟨h'.hold.held.trans h.hold.held, h'.hold.blocks.trans h.hold.blocks,
    h'.hold.regulators.trans h.hold.regulators, h'.hold.req.trans h.hold.req,
    h'.hold.data.trans h.hold.data, h'.hold.out.trans h.hold.out⟩
  kept a ha := h'.kept a (h.kept a ha)
  touched a ha := (h'.touched a ha).elim (h.touched a) .inr
  written a ha := (h'.written a ha).elim (h.written a) .inr
  seen x hx hW := h'.seen x (h.seen x hx hW) hW

theorem mono (h : Touch T W b b₁) (hT : ∀ a, T a → T' a) (hW : ∀ a, W a → W' a) :
    Touch T' W' b b₁ where
  hold := h.hold
  kept := h.kept
  touched a ha := (h.touched a ha).imp_right (hT a)
  written a ha := (h.written a ha).imp_right (hW a)
  seen x hx hx' := h.seen x hx fun hW' => hx' (hW _ hW')

theorem readl (h : Touch T W b b₁) (addr : UInt32) (hT : T addr) (v : UInt32) :
    Touch T W b (Books.enter (.readl addr) v b₁) where
  hold := ⟨h.hold.held, h.hold.blocks, h.hold.regulators, h.hold.req, h.hold.data, h.hold.out⟩
  kept a ha := List.mem_cons_of_mem _ (h.kept a ha)
  touched a ha := by
    rcases List.mem_cons.mp ha with rfl | hmem
    · exact .inr hT
    · exact h.touched a hmem
  written := h.written
  seen x hx hx' := List.mem_cons_of_mem _ (h.seen x hx hx')

theorem writel (h : Touch T W b b₁) (addr : UInt32) (hT : T addr) (hW : W addr)
    (data : UInt32) : Touch T W b (Books.enter (.writel data addr) () b₁) where
  hold := ⟨h.hold.held, h.hold.blocks, h.hold.regulators, h.hold.req, h.hold.data, h.hold.out⟩
  kept a ha := List.mem_cons_of_mem _ (h.kept a ha)
  touched a ha := by
    rcases List.mem_cons.mp ha with rfl | hmem
    · exact .inr hT
    · exact h.touched a hmem
  written a ha := by
    rcases List.mem_cons.mp ha with rfl | hmem
    · exact .inr hW
    · exact h.written a hmem
  seen x hx hx' := by
    refine List.mem_filter.mpr ⟨h.seen x hx hx', decide_eq_true ?_⟩
    rintro rfl
    exact hx' hW

theorem supply (h : Touch T W b b₁) (supply jammed : ℤ) :
    Touch T W b { b₁ with supply := supply, jammed := jammed } :=
  ⟨⟨h.hold.held, h.hold.blocks, h.hold.regulators, h.hold.req, h.hold.data, h.hold.out⟩, h.kept,
    h.touched, h.written, h.seen⟩

end Touch

/-! ## One word -/

/-- Where a word is written. -/
def Prom.At (p : Prom) (addr a : UInt32) : Prop := a = p.blowTimer ∨ a = addr

/-- A call of `qfp_fuse_write_word` with the outcome `r`. -/
structure Word (p : Prom) (addr data : UInt32) (b : Books) (r : Except Fault (Except Errno Unit))
    (b' : Books) : Prop where
  touch : Touch (fun a => a = p.blowStatus ∨ p.At addr a) (p.At addr) b b'
  runs : ∃ err, r = .ok err
  supply : b'.supply - b'.jammed = b.supply - b.jammed
  verified : r = .ok (.ok ()) → (addr, data) ∈ b'.seen

theorem accounts_waitLoop (p : Prom) (b : Books) (timeout : ℕ) :
    Accounts Books.enter (waitLoop p timeout) (fun r b' => (∃ out, r = .ok out) ∧
      b'.supply = b.supply ∧ b'.jammed = b.jammed ∧
      Touch (fun a => a = p.blowStatus) (fun _ => False) b b') b := by
  induction timeout generalizing b with
  | zero => exact ⟨⟨_, rfl⟩, rfl, rfl, .refl b⟩
  | succ timeout ih =>
    refine Accounts.act fun status => ?_
    have hread : Touch (fun a => a = p.blowStatus) (fun _ => False) b
        (Books.enter (.readl p.blowStatus) status b) :=
      Touch.readl (T := fun a => a = p.blowStatus) (.refl b) _ rfl status
    refine Accounts.ite (fun _ => ?_) fun _ => ?_
    · exact ⟨⟨_, rfl⟩, rfl, rfl, hread⟩
    · refine Accounts.act fun _ => (ih _).weaken fun r b' h => ?_
      obtain ⟨hr, hsupply, hjammed, htouch⟩ := h
      exact ⟨hr, hsupply, hjammed, hread.trans htouch⟩

/-- **One word.** -/
theorem accounts_writeWord (p : Prom) (addr data : UInt32) (b : Books) :
    Accounts Books.enter (qfpFuseWriteWord p addr data) (Word p addr data b) b := by
  unfold qfpFuseWriteWord
  have h₁ : Touch (fun a => a = p.blowStatus ∨ p.At addr a) (p.At addr) b
      (Books.enter (.writel qfpromBlowTimerValue p.blowTimer) () b) :=
    (Touch.refl b).writel _ (.inr (.inl rfl)) (.inl rfl) _
  refine Accounts.act fun _ => Accounts.act fun enabled => ?_
  cases enabled with
  | false => exact ⟨h₁, ⟨_, rfl⟩, rfl, nofun⟩
  | true =>
    have h₂ := (h₁.supply (b.supply + 1) b.jammed).writel addr (.inr (.inr rfl)) (.inr rfl) data
    refine Accounts.act fun _ => Accounts.act fun _ => Accounts.act fun disabled => ?_
    cases disabled with
    | false =>
      refine ⟨h₂.supply (b.supply + 1) (b.jammed + 1), ⟨_, rfl⟩, ?_, nofun⟩
      change b.supply + 1 - (b.jammed + 1) = b.supply - b.jammed
      omega
    | true =>
      have h₃ := h₂.supply (b.supply + 1 - 1) b.jammed
      refine Accounts.act fun _ => ?_
      refine (accounts_waitLoop p _ qfpromBlowTimeoutUs).bind (fun out b₃ hb₃ => ?_)
        fun e _ he => ?_
      · obtain ⟨-, hsupply, hjammed, htouch⟩ := hb₃
        have h₄ := h₃.trans (htouch.mono (fun _ => .inl) (fun _ => False.elim))
        have hbalance : b₃.supply - b₃.jammed = b.supply - b.jammed := by
          rw [hsupply, hjammed]
          change b.supply + 1 - 1 - b.jammed = b.supply - b.jammed
          omega
        cases out with
        | error e => exact ⟨h₄, ⟨_, rfl⟩, hbalance, nofun⟩
        | ok status =>
          refine Accounts.ite (fun _ => ?_) fun _ => ?_
          · exact ⟨h₄, ⟨_, rfl⟩, hbalance, nofun⟩
          · refine Accounts.act fun (readData : UInt32) => ?_
            have h₅ := h₄.readl addr (.inr (.inr rfl)) readData
            refine Accounts.ite (fun _ => ?_) fun heq => ?_
            · exact ⟨h₅, ⟨_, rfl⟩, hbalance, nofun⟩
            · refine ⟨h₅, ⟨_, rfl⟩, hbalance, fun _ => ?_⟩
              obtain rfl := Decidable.of_not_not heq
              exact List.mem_cons_self
      · obtain ⟨⟨out, hout⟩, -⟩ := he
        cases hout

/-! ## The loops -/

/-- The words `i` to `i + left` of a request. -/
def Prom.Range (p : Prom) (req : Req) (i left : ℕ) (a : UInt32) : Prop :=
  ∃ j, i ≤ j ∧ j < i + left ∧ a = p.word req j

theorem Prom.Range.succ {p : Prom} {req : Req} {i left : ℕ} {a : UInt32}
    (h : p.Range req (i + 1) left a) : p.Range req i (left + 1) a := by
  obtain ⟨j, hle, hlt, rfl⟩ := h
  exact ⟨j, by omega, by omega, rfl⟩

/-- The loop of a read with the outcome `r`. -/
structure Reads (p : Prom) (req : Req) (left i : ℕ) (buf : List UInt32) (b : Books)
    (r : Except Fault (List UInt32)) (b' : Books) : Prop where
  touch : Touch (p.Range req i left) (fun _ => False) b b'
  supply : b'.supply = b.supply
  jammed : b'.jammed = b.jammed
  fault : ∀ e, r = .error e → buf.length < i + left
  size : ∀ out, r = .ok out → out.length = buf.length ∧ (left = 0 ∨ i + left ≤ buf.length)
  before : ∀ out, r = .ok out → ∀ j, j < i → out[j]? = buf[j]?
  after : ∀ out, r = .ok out → ∀ j, i ≤ j → j < i + left →
    p.word req j ∈ b'.touched ∧ ∃ v, out[j]? = some v ∧ (p.word req j, v) ∈ b'.seen

theorem accounts_readLoop (p : Prom) (req : Req) (left i : ℕ) (buf : List UInt32) (b : Books) :
    Accounts Books.enter (readLoop p req left i buf) (Reads p req left i buf b) b := by
  induction left generalizing i buf b with
  | zero =>
    refine ⟨.refl b, rfl, rfl, nofun, ?_, ?_, fun out _ j hle hlt => ?_⟩
    · rintro _ ⟨⟩
      exact ⟨rfl, .inl rfl⟩
    · rintro _ ⟨⟩ j _
      rfl
    · omega
  | succ left ih =>
    refine Accounts.act fun (v : UInt32) => ?_
    have hread : Touch (p.Range req i (left + 1)) (fun _ => False) b
        (Books.enter (.readl (p.word req i)) v b) :=
      Touch.readl (T := p.Range req i (left + 1)) (.refl b) _ ⟨i, by omega, by omega, rfl⟩ v
    refine Accounts.ite (fun hi => ?_) fun hi => ?_
    · refine (ih (i + 1) (buf.set i v) _).weaken fun r b' h => ?_
      have hlen : (buf.set i v).length = buf.length := List.length_set
      refine ⟨hread.trans (h.touch.mono (fun _ => Prom.Range.succ) fun _ => id), h.supply, h.jammed,
        fun e he => ?_, fun out hout => ?_, fun out hout j hj => ?_, fun out hout j hle hlt => ?_⟩
      · have := h.fault e he
        omega
      · obtain ⟨hout_len, hor⟩ := h.size out hout
        exact ⟨hout_len.trans hlen, .inr (by omega)⟩
      · rw [h.before out hout j (by omega), List.getElem?_set_ne (by omega)]
      · obtain rfl | hlt' := Nat.eq_or_lt_of_le hle
        · -- the word of this turn, which the rest leaves alone
          refine ⟨h.touch.kept _ List.mem_cons_self, v, ?_, h.touch.seen _ List.mem_cons_self id⟩
          rw [h.before out hout i (by omega), List.getElem?_set_self hi]
        · exact h.after out hout j hlt' (by omega)
    · refine ⟨hread, rfl, rfl, fun e _ => by omega, nofun, nofun, nofun⟩

/-- The words that a write has written when it is at word `k`. -/
def Prom.Upto (p : Prom) (req : Req) (i left k : ℕ) (a : UInt32) : Prop :=
  a = p.blowTimer ∨ ∃ j, i ≤ j ∧ j ≤ k ∧ j < i + left ∧ a = p.word req j

/-- The words of the loop are different words, and none is the timer register. -/
def Prom.Apart (p : Prom) (req : Req) (i left : ℕ) : Prop :=
  (∀ j, i ≤ j → j < i + left → p.word req j ≠ p.blowTimer) ∧
    ∀ j j', i ≤ j → j < j' → j' < i + left → p.word req j ≠ p.word req j'

/-- The loop of a write with the outcome `r`. -/
structure Writes (p : Prom) (req : Req) (buf : List UInt32) (left i : ℕ) (b : Books)
    (r : Except Fault (Except Errno Unit)) (b' : Books) : Prop where
  supply : b'.supply - b'.jammed = b.supply - b.jammed
  fault : ∀ e, r = .error e → buf.length < i + left
  words : ∃ k, i ≤ k ∧ k ≤ i + left ∧ (k = i ∨ k ≤ buf.length) ∧
    (r = .ok (.ok ()) → k = i + left) ∧
    Touch (fun a => a = p.blowStatus ∨ p.Upto req i left k a) (p.Upto req i left k) b b' ∧
    (p.Apart req i left → ∀ j, i ≤ j → j < k →
      ∃ v, buf[j]? = some v ∧ (p.word req j, v) ∈ b'.seen)

theorem accounts_writeLoop (p : Prom) (req : Req) (buf : List UInt32) (left i : ℕ) (b : Books) :
    Accounts Books.enter (writeLoop p req buf left i) (Writes p req buf left i b) b := by
  induction left generalizing i b with
  | zero =>
    refine ⟨rfl, nofun, i, by omega, by omega, .inl rfl, fun _ => rfl, .refl b,
      fun _ j hle hlt => ?_⟩
    omega
  | succ left ih =>
    rw [writeLoop]
    cases hv : buf[i]? with
    | none =>
      have hlen := List.getElem?_eq_none_iff.mp hv
      refine ⟨rfl, fun _ _ => by omega, i, by omega, by omega, .inl rfl, nofun, .refl b,
        fun _ j hle hlt => ?_⟩
      omega
    | some v =>
      have hat : ∀ k, i ≤ k → ∀ a, p.At (p.word req i) a → p.Upto req i (left + 1) k a := by
        rintro k hk a (rfl | rfl)
        · exact .inl rfl
        · exact .inr ⟨i, by omega, hk, by omega, rfl⟩
      have htouch : ∀ k, i ≤ k → ∀ {b'}, Touch (fun a => a = p.blowStatus ∨
          p.At (p.word req i) a) (p.At (p.word req i)) b b' → Touch (fun a => a = p.blowStatus ∨
          p.Upto req i (left + 1) k a) (p.Upto req i (left + 1) k) b b' := fun k hk _ h =>
        h.mono (fun a ha => ha.imp_right (hat k hk a)) (hat k hk)
      refine (accounts_writeWord p (p.word req i) v b).bind (fun out b₁ hw => ?_) fun e _ hw => ?_
      · cases out with
        | error e =>
          refine ⟨hw.supply, nofun, i, by omega, by omega, .inl rfl, nofun,
            htouch i (by omega) hw.touch, fun _ j hle hlt => ?_⟩
          omega
        | ok _ =>
          refine (ih (i + 1) b₁).weaken fun r b' h => ?_
          obtain ⟨k, hik, hkl, hlen, hok, htouch', hseen⟩ := h.words
          have hi := (List.getElem?_eq_some_iff.mp hv).1
          have hup : ∀ a, p.Upto req (i + 1) left k a → p.Upto req i (left + 1) k a := by
            rintro a (rfl | ⟨j, h₁, h₂, h₃, rfl⟩)
            · exact .inl rfl
            · exact .inr ⟨j, by omega, h₂, by omega, rfl⟩
          refine ⟨h.supply.trans hw.supply, fun e he => ?_, k, by omega, by omega, by omega,
            fun hr => ?_, (htouch k (by omega) hw.touch).trans
              (htouch'.mono (fun a ha => ha.imp_right (hup a)) hup), fun hapart j hle hlt => ?_⟩
          · have := h.fault e he
            omega
          · have := hok hr
            omega
          · obtain rfl | hlt' := Nat.eq_or_lt_of_le hle
            · refine ⟨v, hv, htouch'.seen _ (hw.verified rfl) ?_⟩
              -- the later words do not touch this one
              rintro (htimer | ⟨j, h₁, h₂, h₃, heq⟩)
              · exact hapart.1 i (by omega) (by omega) htimer
              · exact hapart.2 i j (by omega) (by omega) (by omega) heq
            · refine hseen ⟨fun j h₁ h₂ => hapart.1 j (by omega) (by omega), ?_⟩ j hlt' hlt
              exact fun j j' h₁ h₂ h₃ => hapart.2 j j' (by omega) h₂ (by omega)
      · obtain ⟨out, hout⟩ := hw.runs
        cases hout

/-! ## The commands -/

theorem accounts_getReq {α : Type} {p : Prom} {arg : UInt32} {b : Books}
    {f : Except Errno Req → Fuse α} {Q : Except Fault α → Books → Prop}
    (hbad : ∀ e req, Accounts Books.enter (f (.error e)) Q { b with req := req })
    (hgood : ∀ req, p.accepts req = true →
      Accounts Books.enter (f (.ok req)) Q { b with req := some req }) :
    Accounts Books.enter (getReq p arg >>= f) Q b := by
  have hreq : Accounts Books.enter (getReq p arg) (fun r b' =>
      (∃ e req, r = .ok (.error e) ∧ b' = { b with req := req }) ∨
        ∃ req, p.accepts req = true ∧ r = .ok (.ok req) ∧ b' = { b with req := some req }) b := by
    unfold getReq
    refine Accounts.ite (fun _ => .inl ⟨_, b.req, rfl, rfl⟩) fun _ => ?_
    refine Accounts.act fun (req : Option Req) => ?_
    cases req with
    | none => exact .inl ⟨_, none, rfl, rfl⟩
    | some req =>
      refine Accounts.ite (fun hacc => ?_) fun _ => ?_
      · exact .inr ⟨req, hacc, rfl, rfl⟩
      · exact .inl ⟨_, some req, rfl, rfl⟩
  refine hreq.bind (fun out b' h => ?_) fun e b' h => ?_
  · obtain ⟨e, req, hout, rfl⟩ | ⟨req, hacc, hout, rfl⟩ := h
    · obtain rfl := Except.ok.inj hout
      exact hbad e req
    · obtain rfl := Except.ok.inj hout
      exact hgood req hacc
  · obtain ⟨_, _, hout, -⟩ | ⟨_, _, hout, -⟩ := h <;> cases hout

/-- Everything that was taken is given back. -/
structure Balanced (b b' : Books) : Prop where
  held : b'.held = false
  blocks : b'.blocks = b.blocks
  regulators : b'.regulators = b.regulators
  supply : b'.supply - b'.jammed = b.supply - b.jammed

/-- A command with the outcome `r`. -/
structure Command (p : Prom) (b : Books) (r : Except Fault (Except Errno Unit)) (b' : Books) :
    Prop where
  balanced : ∀ out, r = .ok out → Balanced b b'
  fault : ∀ e, r = .error e → ∃ req, b'.req = some req ∧ p.accepts req = true ∧
    req.words < req.size.toNat
  touched : ∀ a ∈ b'.touched, a ∈ b.touched ∨ a = p.blowTimer ∨ a = p.blowStatus ∨
    ∃ req, b'.req = some req ∧ p.accepts req = true ∧ p.Range req 0 req.size.toNat a

/-- A command that ends before it touches a word. -/
theorem command_early (p : Prom) {b : Books} (hb : b.held = false) (out : Except Errno Unit)
    (req : Option Req) (data : Option (ℕ → UInt32)) {blocks : ℤ} (hblocks : blocks = b.blocks) :
    Command p b (.ok out) { b with req := req, data := data, blocks := blocks } :=
  ⟨fun _ _ => ⟨hb, hblocks, rfl, rfl⟩, nofun, fun _ => .inl⟩

/-- What a successful read hands over. -/
structure Delivered (p : Prom) (b' : Books) (req : Req) : Prop where
  asked : b'.req = some req
  accepts : p.accepts req = true
  size : req.size.toNat ≤ req.words
  out : ∃ buf, b'.out = some (req.data, buf) ∧ buf.length = req.words ∧
    ∀ j, j < req.size.toNat → ∃ v, buf[j]? = some v ∧ (p.word req j, v) ∈ b'.seen

theorem accounts_iocRead (p : Prom) (arg : UInt32) {b : Books} (hb : b.held = false) :
    Accounts Books.enter (iocRead p arg) (fun r b' => Command p b r b' ∧
      (∀ a ∈ b'.written, a ∈ b.written) ∧
      (r = .ok (.ok ()) → ∃ req, Delivered p b' req)) b := by
  unfold iocRead
  refine accounts_getReq (fun e req => ?_) fun req hacc => ?_
  · exact ⟨command_early p hb _ req b.data rfl, fun _ => id, nofun⟩
  have hsize : req.size.toNat ≠ 0 := by
    have hne := (Bool.and_eq_true_iff.mp hacc).1
    intro hzero
    exact (of_decide_eq_true hne) (UInt32.toNat.inj hzero)
  refine Accounts.act fun (got : Bool) => ?_
  cases got with
  | false => exact ⟨command_early p hb _ (some req) b.data rfl, fun _ => id, nofun⟩
  | true =>
    refine Accounts.act fun (down : Bool) => ?_
    cases down with
    | false =>
      refine Accounts.act fun _ => ⟨command_early p hb _ (some req) b.data ?_, fun _ => id, nofun⟩
      exact Int.add_sub_cancel b.blocks 1
    | true =>
      refine (accounts_readLoop p req req.size.toNat 0 _ _).bind (fun buf b₁ h => ?_)
        fun e b₁ h => ?_
      · obtain ⟨hlen, hor⟩ := h.size buf rfl
        rw [List.length_replicate] at hlen hor
        refine Accounts.act fun (copied : Bool) => Accounts.act fun _ => Accounts.act fun _ => ?_
        refine ⟨⟨fun _ _ => ⟨rfl, ?_, h.touch.hold.regulators, ?_⟩, nofun, fun a ha => ?_⟩,
          fun a ha => (h.touch.written a ha).resolve_right id, fun hr => ⟨req, ?_⟩⟩
        · change b₁.blocks - 1 = b.blocks
          rw [h.touch.hold.blocks]
          change b.blocks + 1 - 1 = b.blocks
          omega
        · change b₁.supply - b₁.jammed = b.supply - b.jammed
          rw [h.supply, h.jammed]
          rfl
        · refine (h.touch.touched a ha).imp_right fun hrange => .inr (.inr ⟨req, ?_, hacc, hrange⟩)
          exact h.touch.hold.req
        · refine ⟨h.touch.hold.req, hacc, by omega, buf, rfl, hlen, fun j hj => ?_⟩
          exact (h.after buf rfl j (by omega) (by omega)).2
      · refine ⟨⟨nofun, fun _ _ => ⟨req, h.touch.hold.req, hacc, ?_⟩, fun a ha => ?_⟩,
          fun a ha => (h.touch.written a ha).resolve_right id, nofun⟩
        · have := h.fault e rfl
          rw [List.length_replicate] at this
          omega
        · refine (h.touch.touched a ha).imp_right fun hrange => .inr (.inr ⟨req, ?_, hacc, hrange⟩)
          exact h.touch.hold.req

/-- How far a write came: the words before `k` are as they should be, and nothing was written behind
word `k`. -/
structure Programmed (p : Prom) (b : Books) (out : Except Errno Unit) (b' : Books) (req : Req)
    (data : ℕ → UInt32) (k : ℕ) : Prop where
  asked : b'.req = some req
  accepts : p.accepts req = true
  given : b'.data = some data
  words : k ≤ req.words
  le : k ≤ req.size.toNat
  all : out = .ok () → k = req.size.toNat
  written : ∀ a ∈ b'.written, a ∈ b.written ∨ p.Upto req 0 req.size.toNat k a
  seen : p.Apart req 0 req.size.toNat → ∀ j, j < k → (p.word req j, data j) ∈ b'.seen

theorem Touch.of_upto {p : Prom} {req : Req} {b₀ b₁ : Books} {k : ℕ}
    (h : Touch (fun a => a = p.blowStatus ∨ p.Upto req 0 req.size.toNat k a)
      (p.Upto req 0 req.size.toNat k) b₀ b₁) (hreq : b₀.req = some req)
    (hacc : p.accepts req = true) : ∀ a ∈ b₁.touched, a ∈ b₀.touched ∨ a = p.blowTimer ∨
      a = p.blowStatus ∨ ∃ req, b₁.req = some req ∧ p.accepts req = true ∧
        p.Range req 0 req.size.toNat a := by
  intro a ha
  obtain hmem | hstatus | htimer | ⟨j, h₁, -, h₂, heq⟩ := h.touched a ha
  · exact .inl hmem
  · exact .inr (.inr (.inl hstatus))
  · exact .inr (.inl htimer)
  · exact .inr (.inr (.inr ⟨req, h.hold.req.trans hreq, hacc, j, h₁, h₂, heq⟩))

theorem accounts_iocWrite (p : Prom) (arg : UInt32) {b : Books} (hb : b.held = false) :
    Accounts Books.enter (iocWrite p arg) (fun r b' => Command p b r b' ∧
      ∀ out, r = .ok out → (out ≠ .ok () ∧ ∀ a ∈ b'.written, a ∈ b.written) ∨
        ∃ req data k, Programmed p b out b' req data k) b := by
  have hearly : ∀ (e : Errno) req data {blocks : ℤ}, blocks = b.blocks →
      Command p b (.ok (.error e)) { b with req := req, data := data, blocks := blocks } ∧
        ∀ out, (.ok (.error e) : Except Fault _) = .ok out →
          (out ≠ .ok () ∧ ∀ a ∈ b.written, a ∈ b.written) ∨ ∃ req' data' k, Programmed p b out
            { b with req := req, data := data, blocks := blocks } req' data' k := by
    intro e req data blocks hblocks
    refine ⟨command_early p hb _ req data hblocks, ?_⟩
    rintro _ ⟨⟩
    exact .inl ⟨nofun, fun _ => id⟩
  unfold iocWrite
  refine accounts_getReq (fun e req => hearly e req b.data rfl) fun req hacc => ?_
  refine Accounts.act fun (got : Bool) => ?_
  cases got with
  | false => exact hearly .enomem (some req) b.data rfl
  | true =>
    refine Accounts.act fun (data : Option (ℕ → UInt32)) => ?_
    cases data with
    | none =>
      refine Accounts.act fun _ => hearly .efault (some req) none ?_
      exact Int.add_sub_cancel b.blocks 1
    | some data =>
      refine Accounts.act fun (down : Bool) => ?_
      cases down with
      | false =>
        refine Accounts.act fun _ => hearly .erestartsys (some req) (some data) ?_
        exact Int.add_sub_cancel b.blocks 1
      | true =>
        refine (accounts_writeLoop p req _ req.size.toNat 0 _).bind (fun out b₁ h => ?_)
          fun e b₁ h => ?_
        · obtain ⟨k, -, hle, hlen, hall, htouch, hseen⟩ := h.words
          rw [Nat.zero_add] at hle hall
          refine Accounts.act fun _ => Accounts.act fun _ => ⟨⟨fun _ _ => ⟨rfl, ?_,
            htouch.hold.regulators, h.supply⟩, nofun, fun a ha => ?_⟩, ?_⟩
          · change b₁.blocks - 1 = b.blocks
            rw [htouch.hold.blocks]
            exact Int.add_sub_cancel b.blocks 1
          · exact htouch.of_upto rfl hacc a ha
          · rintro _ ⟨⟩
            refine .inr ⟨req, data, k, htouch.hold.req, hacc, htouch.hold.data, ?_, hle,
              fun hok => hall (congrArg _ hok), htouch.written, fun hapart j hj => ?_⟩
            · rw [List.length_map, List.length_range] at hlen
              omega
            · obtain ⟨v, hv, hmem⟩ := hseen hapart j (Nat.zero_le j) hj
              rw [List.length_map, List.length_range] at hlen
              rw [List.getElem?_map, List.getElem?_range (by omega)] at hv
              exact Option.some.inj hv ▸ hmem
        · obtain ⟨k, -, -, -, -, htouch, -⟩ := h.words
          have htouched := htouch.of_upto rfl hacc
          refine ⟨⟨nofun, fun _ _ => ⟨req, htouch.hold.req, hacc, ?_⟩, htouched⟩, nofun⟩
          have hfault := h.fault e rfl
          rw [List.length_map, List.length_range] at hfault
          omega

theorem accounts_ioctl (p : Prom) (cmd arg : UInt32) {b : Books} (hb : b.held = false) :
    Accounts Books.enter (qfpFuseIoctl p cmd arg) (Command p b) b := by
  have hnotty : Command p b (.ok (.error .enotty)) b := command_early p hb _ b.req b.data rfl
  unfold qfpFuseIoctl
  refine Accounts.ite (fun _ => hnotty) fun _ => Accounts.ite (fun _ => ?_) fun _ => ?_
  · exact (accounts_iocRead p arg hb).weaken fun _ _ h => h.1
  · refine Accounts.ite (fun _ => ?_) fun _ => hnotty
    exact (accounts_iocWrite p arg hb).weaken fun _ _ h => h.1

/-! ## Sessions -/

theorem Balanced.trans {b b₁ b₂ : Books} (h : Balanced b b₁) (h' : Balanced b₁ b₂) :
    Balanced b b₂ :=
  ⟨h'.held, h'.blocks.trans h.blocks, h'.regulators.trans h.regulators, h'.supply.trans h.supply⟩

/-- **Any number of commands.** -/
theorem accounts_calls (p : Prom) (cmds : List (UInt32 × UInt32)) {b : Books}
    (hb : b.held = false) :
    Accounts Books.enter (calls p cmds) (fun r b' => ∀ rs, r = .ok rs → Balanced b b') b := by
  induction cmds generalizing b with
  | nil => exact fun _ _ => ⟨hb, rfl, rfl, rfl⟩
  | cons cmd cmds ih =>
    refine (accounts_ioctl p cmd.1 cmd.2 hb).bind (fun out b₁ h => ?_) fun e _ _ _ => nofun
    have hbal := h.balanced out rfl
    refine (ih hbal.held).bind (fun rs b₂ h₂ => ?_) fun e _ _ _ => nofun
    exact fun _ _ => hbal.trans (h₂ rs rfl)

/-- What a session that has ended leaves behind. -/
structure Closed (b : Books) (out : Except Errno (List (Except Errno Unit))) (b' : Books) :
    Prop where
  held : b'.held = false
  regulators : b'.regulators = b.regulators
  supply : b'.supply - b.supply = b'.jammed - b.jammed
  blocks : b'.blocks - b.blocks = if out matches .error .regulator then 1 else 0

theorem accounts_open (b : Books) :
    Accounts Books.enter qfpFuseOpen (fun r b' =>
      (r = .ok (.error .enomem) ∧ b' = b) ∨
        (r = .ok (.error .regulator) ∧ b' = { b with blocks := b.blocks + 1 }) ∨
        (r = .ok (.ok ()) ∧
          b' = { b with blocks := b.blocks + 1, regulators := b.regulators + 1 })) b := by
  unfold qfpFuseOpen
  refine Accounts.act fun (got : Bool) => ?_
  cases got with
  | false => exact .inl ⟨rfl, rfl⟩
  | true =>
    refine Accounts.act fun (regulator : Bool) => ?_
    cases regulator with
    | false => exact .inr (.inl ⟨rfl, rfl⟩)
    | true => exact .inr (.inr ⟨rfl, rfl⟩)

theorem accounts_session (p : Prom) (cmds : List (UInt32 × UInt32)) {b : Books}
    (hb : b.held = false) :
    Accounts Books.enter (session p cmds) (fun r b' => ∀ out, r = .ok out → Closed b out b') b := by
  unfold session
  refine (accounts_open b).bind (fun out b₁ h => ?_) fun e _ _ _ => nofun
  obtain ⟨hout, rfl⟩ | ⟨hout, rfl⟩ | ⟨hout, rfl⟩ := h
  · obtain rfl := Except.ok.inj hout
    rintro _ ⟨⟩
    exact ⟨hb, rfl, by omega, Int.sub_self _⟩
  · -- `priv` is lost
    obtain rfl := Except.ok.inj hout
    rintro _ ⟨⟩
    refine ⟨hb, rfl, ?_, ?_⟩
    · change b.supply - b.supply = b.jammed - b.jammed
      omega
    · change b.blocks + 1 - b.blocks = 1
      omega
  · obtain rfl := Except.ok.inj hout
    have hcalls := accounts_calls p cmds
      (b := { b with blocks := b.blocks + 1, regulators := b.regulators + 1 }) hb
    refine hcalls.bind (fun rs b₂ h₂ => ?_) fun e _ _ _ => nofun
    obtain ⟨hheld, hblocks, hregulators, hsupply⟩ := h₂ rs rfl
    refine Accounts.act fun _ => Accounts.act fun _ => ?_
    rintro _ ⟨⟩
    refine ⟨hheld, ?_, ?_, ?_⟩
    · change b₂.regulators - 1 = b.regulators
      rw [hregulators]
      exact Int.add_sub_cancel b.regulators 1
    · change b₂.supply - b.supply = b₂.jammed - b.jammed
      dsimp only at hsupply
      omega
    · change b₂.blocks - 1 - b.blocks = 0
      rw [hblocks]
      change b.blocks + 1 - 1 - b.blocks = 0
      omega

/-- **A session gives back what it takes.** Whatever the hardware, the allocator and the process
answer, after any number of commands: the semaphore is up, the regulator is put, every block is
freed but the private data of an `open` that got no regulator, and the regulator is left on once for
each `regulator_disable` that failed. -/
theorem session_balanced {σ : Type} (h : Hardware Io Io.Answer σ) (p : Prom)
    (cmds : List (UInt32 × UInt32)) (s : σ) {b : Books} (hb : b.held = false)
    {out : Except Errno (List (Except Errno Unit))}
    (hrun : (run (accounted h Books.enter) (session p cmds) (s, b)).1 = .ok out) :
    Closed b out (run (accounted h Books.enter) (session p cmds) (s, b)).2.2 :=
  run_accounts h (accounts_session p cmds hb) out hrun

/-! ## A bench -/

/-- Nothing is taken yet. -/
def Books.empty : Books where
  held := false
  blocks := 0
  regulators := 0
  supply := 0
  jammed := 0
  touched := []
  written := []
  seen := []
  req := none
  data := none
  out := none

/-- A PROM whose words take the bits that are written, and a process with one request and its words.
The regulator cannot be switched off while `stuck`. -/
def bench (req : Req) (data : ℕ → UInt32) (stuck : Bool) :
    Hardware Io Io.Answer (UInt32 → UInt32)
  | .readl addr, mem => (mem addr, mem)
  | .writel v addr, mem => ((), fun a => if a = addr then mem a ||| v else mem a)
  | .regulatorDisable, mem => (!stuck, mem)
  | .regulatorGet, mem | .regulatorEnable, mem | .kmalloc, mem | .kzalloc _, mem
  | .downInterruptible, mem | .copyOut .., mem => (true, mem)
  | .copyReq _, mem => (some req, mem)
  | .copyIn .., mem => (some data, mem)
  | .regulatorPut, mem | .msleep _, mem | .udelay _, mem | .kfree, mem | .up, mem => ((), mem)

/-- A PROM of 32 KiB. -/
def promEx : Prom := ⟨0x700000, 0x707fff⟩

theorem session_balanced_stuck :
    let r := run (accounted (bench ⟨8, 2, 0⟩ (fun _ => 5) true) Books.enter)
      (session promEx [(0x9201, 1), (0x9202, 1)]) (fun _ => 0, .empty)
    r.1 = .ok (.ok [.error .efault, .ok ()]) ∧ r.2.2.jammed = 1 ∧ Closed .empty
      (.ok [.error .efault, .ok ()]) r.2.2 :=
  ⟨rfl, rfl, session_balanced _ _ _ _ rfl rfl⟩

end LddExample.QfpFuse
