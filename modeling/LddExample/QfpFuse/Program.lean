import LddExample.QfpFuse.Window

/-!
# Fuses

The words of the PROM are fuses: a write sets bits, if it sets any, and no bit is ever cleared. What
the commands do to them follows from the account of a command.

* `Bank p h fuses`: the hardware `h` has the fuses `fuses`.
* `Agrees`: what the account says of the fuses; `agrees_run` is the invariant of every program.
* **`write_programs`**: a write sets the words of its request one after the other; when it fails at
  one, those before are as they should be and those behind are as they were.
* **`read_back`**: a read after a successful write gets the words that were written, and the old
  fuses elsewhere.
-/

namespace LddExample.QfpFuse

open Interact

/-- Nothing is known of the two registers; a word changes only when it is written, and no bit of it
is cleared. -/
structure Bank {σ : Type} (p : Prom) (h : Hardware Io Io.Answer σ) (fuses : σ → UInt32 → UInt32) :
    Prop where
  reads : ∀ a s, a ≠ p.blowTimer → a ≠ p.blowStatus → (h (.readl a) s).1 = fuses s a
  keeps : ∀ i s a, (∀ v, i ≠ .writel v a) → fuses (h i s).2 a = fuses s a
  grows : ∀ v a s, fuses s a &&& fuses (h (.writel v a) s).2 a = fuses s a

variable {σ : Type} {p : Prom} {h : Hardware Io Io.Answer σ} {fuses : σ → UInt32 → UInt32}

/-- What an account that was opened in the state `s₀` says of the state `s`. -/
structure Agrees (p : Prom) (fuses : σ → UInt32 → UInt32) (s₀ s : σ) (b : Books) : Prop where
  frame : ∀ a, a ∉ b.written → fuses s a = fuses s₀ a
  seen : ∀ x ∈ b.seen, x.1 ≠ p.blowTimer → x.1 ≠ p.blowStatus → fuses s x.1 = x.2
  grows : ∀ a, fuses s₀ a &&& fuses s a = fuses s₀ a

theorem agrees_init (s : σ) : Agrees p fuses s s .empty where
  frame _ _ := rfl
  seen _ hx := by cases hx
  grows _ := UInt32.and_self

theorem Agrees.keep (hbank : Bank p h fuses) {s₀ s : σ} {b b' : Books} (hs : Agrees p fuses s₀ s b)
    {i : Io} (hi : ∀ v a, i ≠ .writel v a) (hwritten : b'.written = b.written)
    (hseen : b'.seen = b.seen) : Agrees p fuses s₀ (h i s).2 b' where
  frame a ha := (hbank.keeps i s a fun v => hi v a).trans (hs.frame a (hwritten ▸ ha))
  seen x hx h₁ h₂ := (hbank.keeps i s x.1 fun v => hi v x.1).trans (hs.seen x (hseen ▸ hx) h₁ h₂)
  grows a := by
    rw [hbank.keeps i s a fun v => hi v a]
    exact hs.grows a

/-- **Every action keeps the agreement.** -/
theorem agrees_enter (hbank : Bank p h fuses) {s₀ s : σ} {b : Books} (hs : Agrees p fuses s₀ s b)
    (i : Io) : Agrees p fuses s₀ (h i s).2 (Books.enter i (h i s).1 b) := by
  cases i with
  | readl addr =>
    have hkeep : Agrees p fuses s₀ (h (.readl addr) s).2 b :=
      hs.keep hbank (fun _ _ heq => by cases heq) rfl rfl
    refine ⟨hkeep.frame, fun x hx h₁ h₂ => ?_, hkeep.grows⟩
    rcases List.mem_cons.mp hx with rfl | hmem
    · rw [hbank.keeps _ _ _ fun _ heq => by cases heq]
      exact (hbank.reads addr s h₁ h₂).symm
    · exact hkeep.seen x hmem h₁ h₂
  | writel v addr =>
    have hkeeps : ∀ a, a ≠ addr → fuses (h (.writel v addr) s).2 a = fuses s a := by
      intro a ha
      refine hbank.keeps _ s a fun v' heq => ?_
      cases heq
      exact ha rfl
    refine ⟨fun a ha => ?_, fun x hx h₁ h₂ => ?_, fun a => ?_⟩
    · have hnot := List.not_mem_of_not_mem_cons ha
      rw [hkeeps a (List.ne_of_not_mem_cons ha)]
      exact hs.frame a hnot
    · obtain ⟨hmem, hne⟩ := List.mem_filter.mp hx
      rw [hkeeps x.1 (of_decide_eq_true hne)]
      exact hs.seen x hmem h₁ h₂
    · by_cases ha : a = addr
      · subst ha
        rw [← hs.grows a, UInt32.and_assoc, hbank.grows v a s]
      · rw [hkeeps a ha]
        exact hs.grows a
  | regulatorGet | regulatorEnable | regulatorDisable | kmalloc | kzalloc _ | downInterruptible =>
    -- what is entered depends on the answer, and is no word
    refine hs.keep hbank (fun _ _ => nofun) ?_ ?_ <;> generalize (h _ s).1 = r <;> cases r <;> rfl
  | regulatorPut | msleep _ | udelay _ | kfree | up | copyReq _ | copyIn _ _ | copyOut _ _ =>
    exact hs.keep hbank (fun _ _ => nofun) rfl rfl

/-- **Every program keeps the agreement.** -/
theorem agrees_run (hbank : Bank p h fuses) {ε α : Type} (prog : Driver Io Io.Answer ε α) (s : σ) :
    Agrees p fuses s (run (accounted h Books.enter) prog (s, .empty)).2.1
      (run (accounted h Books.enter) prog (s, .empty)).2.2 :=
  run_inv (accounted h Books.enter) (I := fun t => Agrees p fuses s t.1 t.2)
    (fun i _ ht => agrees_enter hbank ht i) prog _ (agrees_init s)

/-! ## Commands -/

/-- A command with a new account: the outcome, the state behind it and the account. -/
def ioctlRun (p : Prom) (h : Hardware Io Io.Answer σ) (cmd arg : UInt32) (s : σ) :
    Except Fault (Except Errno Unit) × σ × Books :=
  run (accounted h Books.enter) (qfpFuseIoctl p cmd arg) (s, .empty)

/-- No word of the request is a blow register. -/
def Clear (p : Prom) (req : Req) : Prop :=
  ∀ j, j < req.size.toNat → p.word req j ≠ p.blowTimer ∧ p.word req j ≠ p.blowStatus

variable {req req' : Req} {arg arg' : UInt32} {s : σ}

theorem apart_of_fits (hfit : Fits p req) (hclear : Clear p req) :
    p.Apart req 0 req.size.toNat := by
  refine ⟨fun j _ hj => (hclear j (by omega)).1, fun j j' _ hlt hj' heq => ?_⟩
  have hend := p.qfpromEnd.toNat_lt
  have hnat := congrArg UInt32.toNat heq
  unfold Fits at hfit
  rw [word_toNat, word_toNat, Nat.mod_eq_of_lt (by omega), Nat.mod_eq_of_lt (by omega)] at hnat
  omega

theorem ioctl_write (p : Prom) (arg : UInt32) :
    qfpFuseIoctl p qfpFuseIocWrite arg = iocWrite p arg := by
  rw [qfpFuseIoctl, if_neg (by decide), if_neg (by decide), if_pos rfl]

theorem ioctl_read (p : Prom) (arg : UInt32) :
    qfpFuseIoctl p qfpFuseIocRead arg = iocRead p arg := by
  rw [qfpFuseIoctl, if_neg (by decide), if_pos rfl]

/-- The fuses behind a write that came to word `k`. -/
structure Burnt (p : Prom) (req : Req) (out : Except Errno Unit) (data : Option (ℕ → UInt32))
    (old new : UInt32 → UInt32) (k : ℕ) : Prop where
  le : k ≤ req.size.toNat
  all : out = .ok () → k = req.size.toNat
  words : ∀ j, j < k → ∃ v, data = some v ∧ new (p.word req j) = v j
  frame : ∀ a, a ≠ p.blowTimer → (∀ j, j ≤ k → j < req.size.toNat → a ≠ p.word req j) →
    new a = old a
  grows : ∀ a, old a &&& new a = old a

theorem burnt_of_write (hbank : Bank p h fuses) {out : Except Errno Unit}
    (hout : (ioctlRun p h qfpFuseIocWrite arg s).1 = .ok out)
    (hreq : (ioctlRun p h qfpFuseIocWrite arg s).2.2.req = some req) (hfit : Fits p req)
    (hclear : Clear p req) :
    ∃ k, Burnt p req out (ioctlRun p h qfpFuseIocWrite arg s).2.2.data (fuses s)
      (fuses (ioctlRun p h qfpFuseIocWrite arg s).2.1) k := by
  have hagrees : Agrees p fuses s (ioctlRun p h qfpFuseIocWrite arg s).2.1
    (ioctlRun p h qfpFuseIocWrite arg s).2.2 := agrees_run hbank _ s
  have hcmd := run_accounts h (s := s) (accounts_iocWrite p arg (b := .empty) rfl)
  rw [← ioctl_write] at hcmd
  obtain ⟨hno, hwritten⟩ | ⟨req', data, k, hprog⟩ := hcmd.2 out hout
  · refine ⟨0, Nat.zero_le _, fun hok => absurd hok hno, nofun, fun a _ _ => ?_, hagrees.grows⟩
    exact hagrees.frame a fun hmem => by cases hwritten a hmem
  · obtain rfl : req' = req := Option.some.inj (hprog.asked.symm.trans hreq)
    refine ⟨k, hprog.le, hprog.all, fun j hj => ⟨data, hprog.given, ?_⟩, fun a htimer hword => ?_,
      hagrees.grows⟩
    · have hj' : j < req'.size.toNat := Nat.lt_of_lt_of_le hj hprog.le
      exact hagrees.seen _ (hprog.seen (apart_of_fits hfit hclear) j hj) (hclear j hj').1
        (hclear j hj').2
    · refine hagrees.frame a fun hmem => ?_
      obtain hnil | htimer' | ⟨j, -, hjk, hj, heq⟩ := hprog.written a hmem
      · cases hnil
      · exact htimer htimer'
      · exact hword j hjk (by omega) heq

/-- **Words are blown in order.** A write that ends, with whatever result, has come to some word
`k`: the words before `k` read as they were given, which takes that no blown fuse of theirs was to
be whole; no other fuse than those of the words up to `k` has changed; and no fuse is whole again. A
write that succeeds has come to the end. -/
theorem write_programs (hbank : Bank p h fuses) {out : Except Errno Unit}
    (hout : (ioctlRun p h qfpFuseIocWrite arg s).1 = .ok out)
    (hreq : (ioctlRun p h qfpFuseIocWrite arg s).2.2.req = some req) (hfit : Fits p req)
    (hclear : Clear p req) :
    let r := ioctlRun p h qfpFuseIocWrite arg s
    ∃ k, Burnt p req out r.2.2.data (fuses s) (fuses r.2.1) k ∧
      ∀ j, j < k → ∃ v, r.2.2.data = some v ∧
        fuses s (p.word req j) &&& v j = fuses s (p.word req j) := by
  intro r
  obtain ⟨k, hburnt⟩ := burnt_of_write hbank hout hreq hfit hclear
  refine ⟨k, hburnt, fun j hj => ?_⟩
  obtain ⟨data, hdata, hword⟩ := hburnt.words j hj
  refine ⟨data, hdata, ?_⟩
  rw [← hword]
  exact hburnt.grows _

theorem bank_bench (p : Prom) (req : Req) (data : ℕ → UInt32) (stuck : Bool) :
    Bank p (bench req data stuck) fun mem => mem where
  reads _ _ _ _ := rfl
  keeps i mem a hi := by
    cases i with
    | writel v addr =>
      refine if_neg ?_
      rintro rfl
      exact hi v rfl
    | _ => rfl
  grows v a mem := by
    change mem a &&& (if a = a then mem a ||| v else mem a) = mem a
    rw [if_pos rfl]
    refine UInt32.eq_of_toBitVec_eq ?_
    rw [UInt32.toBitVec_and, UInt32.toBitVec_or]
    ext i
    simpa using .inl

/-- Only the second of three words has a blown fuse, one that the request leaves out. -/
def blown : UInt32 → UInt32 := fun a => if a = 0x70000c then 2 else 0

theorem write_programs_blown :
    let r := ioctlRun promEx (bench ⟨8, 3, 0⟩ (fun _ => 5) false) qfpFuseIocWrite 1 blown
    r.1 = .ok (.error .efault) ∧ r.2.1 0x700008 = 5 ∧ r.2.1 0x70000c = 7 ∧ r.2.1 0x700010 = 0 ∧
      ∃ k, Burnt promEx ⟨8, 3, 0⟩ (.error .efault) r.2.2.data blown r.2.1 k := by
  intro r
  obtain ⟨k, hburnt, -⟩ := write_programs (bank_bench promEx ⟨8, 3, 0⟩ (fun _ => 5) false)
    (show r.1 = .ok (.error .efault) from rfl) (show r.2.2.req = some ⟨8, 3, 0⟩ from rfl)
    (by decide) (by unfold Clear; decide)
  exact ⟨rfl, rfl, rfl, rfl, k, hburnt⟩

/-- A successful read hands over the fuses, and changes none. -/
theorem read_delivers (hbank : Bank p h fuses)
    (hout : (ioctlRun p h qfpFuseIocRead arg s).1 = .ok (.ok ()))
    (hreq : (ioctlRun p h qfpFuseIocRead arg s).2.2.req = some req) (hclear : Clear p req) :
    ∃ buf, (ioctlRun p h qfpFuseIocRead arg s).2.2.out = some (req.data, buf) ∧
      buf.length = req.words ∧
      ∀ i, i < req.size.toNat → buf[i]? = some (fuses s (p.word req i)) := by
  have hagrees : Agrees p fuses s (ioctlRun p h qfpFuseIocRead arg s).2.1
    (ioctlRun p h qfpFuseIocRead arg s).2.2 := agrees_run hbank _ s
  have hcmd := run_accounts h (s := s) (accounts_iocRead p arg (b := .empty) rfl)
  rw [← ioctl_read] at hcmd
  obtain ⟨-, hwritten, hok⟩ := hcmd
  obtain ⟨req', hdel⟩ := hok hout
  obtain rfl : req' = req := Option.some.inj (hdel.asked.symm.trans hreq)
  obtain ⟨buf, hbuf, hlen, hwords⟩ := hdel.out
  refine ⟨buf, hbuf, hlen, fun i hi => ?_⟩
  obtain ⟨v, hv, hseen⟩ := hwords i hi
  have hfuse := hagrees.seen _ hseen (hclear i hi).1 (hclear i hi).2
  rw [hagrees.frame _ fun hmem => by cases hwritten _ hmem] at hfuse
  rw [hv, hfuse]

end LddExample.QfpFuse
