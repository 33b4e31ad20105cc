import LddExample.Lib.CString
import LddExample.ListHead.Notifier
import Mathlib.Algebra.Group.Nat.Defs
import Mathlib.Tactic.SplitIfs
import Mathlib.Tactic.Tauto

/-!
# The result of `reg_read`

The notifier with the local variables of every call of `reg_read`: the text that `sprintf` stores at
`str`, the bytes that `copy_to_user` stores in the caller's buffer, and the two variables `retval`
and `len`. The error paths set `retval`; the function returns `len`.

* `Call`, `Call.giveUp`, `Call.deliver`: the locals and what the paths do to them.
* **`readStep`**: a step of the notifier with the locals of the thread that makes it.
* `exec_gld`: a run with the locals is a run of the notifier.
* `Call.Contract`: what a result has to be.
* `done_step`: the results that a step adds.
* **`contract_iff`**: every result meets the contract exactly when no call gives up, the counter has
  at most eight digits, the text fits the caller's buffer and no copy fails.
* **`overrun_of_ticks`**: the counter takes every value, and from 10⁸ on the text is too long.
-/

namespace LddExample.ListHead

open CString

/-! ## The locals -/

/-- `EAGAIN` -/
def eagain : ℤ := 11

/-- `EFAULT` -/
def efault : ℤ := 14

/-- `ERESTARTSYS` -/
def erestartsys : ℤ := 512

/-- `sizeof(str)` -/
def strSize : ℕ := 10

/-- What `sprintf(str, "%lu\n", d)` stores, with the NUL. -/
def sprintfLu (d : UInt64) : List UInt8 :=
  (Nat.toDigits 10 d.toNat).map Char.toUInt8 ++ [10] ++ [0]

/-- The locals of a call of `reg_read`. -/
structure Call where
  count : ℕ
  retval : ℤ
  /-- the bytes that `sprintf` has stored at `str` -/
  str : List UInt8
  len : ℕ
  /-- the bytes that `copy_to_user` has stored at `buffer` -/
  ubuf : List UInt8
deriving DecidableEq

namespace Call

/-- The locals when a call begins. -/
def start (count : ℕ) : Call := ⟨count, 0, [], 0, []⟩

/-- The two tests of the waiting loop; `signal` is the answer of `signal_pending`. -/
def giveUp (c : Call) (nonblock signal : Bool) : Call :=
  if nonblock then { c with retval := -eagain }
  else if signal then { c with retval := -erestartsys }
  else c

/-- `sprintf`, `strlen` and `copy_to_user`; `left` is the answer of `copy_to_user`, the number of
bytes that it has not copied. -/
def deliver (c : Call) (d : UInt64) (left : ℕ) : Call :=
  let str := sprintfLu d
  let len := strlen str + 1
  { c with
    str := str, len := len, ubuf := str.take (len - left),
    retval := if left = 0 then c.retval else -efault }

/-- `return len` -/
def ret (c : Call) : ℤ := c.len

end Call

/-- The notifier, the locals of the threads and the calls that have returned. -/
structure Reads where
  gld : Notifier
  call : ℕ → Call
  returned : List Call

namespace Reads

/-- No call has been made. -/
def init : Reads := ⟨.init, fun _ => .start 0, []⟩

/-- The locals of `r` after its next access. -/
def locals (s : Reads) (r : ℕ) (signal : Bool) (left : ℕ) : Call :=
  match (s.gld.reader r).pc with
  | .retry => (s.call r).giveUp (s.gld.reader r).nonblock signal
  | .load => (s.call r).deliver s.gld.data left
  | .out | .test | .enqueue | .setState | .check | .schedule | .blocked | .clear | .finish =>
    s.call r

end Reads

/-- The actions of the notifier, with what a call is asked for and what its copy leaves. -/
inductive ReadAct
  | regOpen
  | release (f : ℕ)
  | start (r f : ℕ) (nonblock : Bool) (count : ℕ)
  | regRead (r : ℕ) (signal : Bool) (left : ℕ)
  | signal (r : ℕ)
  | timerFunc

/-- The step of the notifier. -/
def ReadAct.act : ReadAct → NotifyAct
  | regOpen => .regOpen
  | release f => .release f
  | start r f nonblock _ => .start r f nonblock
  | regRead r pending _ => .regRead r pending
  | signal r => .signal r
  | timerFunc => .timerFunc

/-- **One step.** -/
def readStep (s : Reads) (a : ReadAct) : Option Reads :=
  (notifyStep s.gld a.act).map fun gld =>
    match a with
    | .start r _ _ count => { s with gld := gld, call := Function.update s.call r (.start count) }
    | .regRead r signal left =>
      { gld := gld
        call := Function.update s.call r (s.locals r signal left)
        returned :=
          if (s.gld.reader r).pc = .finish then s.returned ++ [s.call r] else s.returned }
    | .regOpen | .release _ | .signal _ | .timerFunc => { s with gld := gld }

/-- A run with the locals is a run of the notifier. -/
theorem exec_gld {l : List ReadAct} {s s' : Reads} (h : Lts.exec readStep s l = some s') :
    Lts.exec notifyStep s.gld (l.map ReadAct.act) = some s'.gld := by
  induction l generalizing s with
  | nil =>
    cases h
    rfl
  | cons a l ih =>
    obtain ⟨t, ht, h⟩ := Lts.exec_cons_eq_some h
    obtain ⟨gld, hgld, rfl⟩ := Option.map_eq_some_iff.1 ht
    rw [List.map_cons, Lts.exec_cons, hgld, Option.bind_some, ← ih h]
    cases a <;> rfl

/-- The counter is `d`, and no file is open. -/
def Reads.ticked (d : UInt64) : Reads :=
  { Reads.init with gld := { Notifier.init with data := d } }

/-- The counter takes every value: five accesses of `timer_func` are one tick. -/
theorem exec_ticks (n : ℕ) :
    Lts.exec readStep .init (List.replicate (5 * n) .timerFunc) =
      some (Reads.ticked (.ofNat n)) := by
  induction n with
  | zero => rfl
  | succ n ih =>
    rw [Nat.mul_add, List.replicate_add, Lts.exec_append, ih, UInt64.ofNat_add]
    rfl

/-! ## The steps of the notifier that a call sees -/

namespace Notifier

variable {s s' : Notifier}

theorem pc_timerFunc (s : Notifier) (q : ℕ) : (s.timerFunc.reader q).pc = (s.reader q).pc := by
  unfold timerFunc
  split
  case h_6 r rest ht =>
    show ((s.setReader r _).reader q).pc = _
    rw [reader_setReader]
    split_ifs with hq
    · rw [hq]
    · rfl
  all_goals rfl

theorem pc_signal (s : Notifier) (r q : ℕ) : ((s.signal r).reader q).pc = (s.reader q).pc := by
  rw [signal, reader_setReader]
  split_ifs with hq
  · rw [hq]
  · rfl

theorem pc_step {a : NotifyAct} (h : notifyStep s a = some s')
    (hstart : ∀ r f nonblock, a ≠ .start r f nonblock) (hread : ∀ r pending, a ≠ .regRead r pending)
    (q : ℕ) : (s'.reader q).pc = (s.reader q).pc := by
  cases a with
  | regOpen =>
    simp only [notifyStep, regOpen] at h
    split_ifs at h
    cases h
    rfl
  | release f =>
    simp only [notifyStep, release] at h
    split_ifs at h
    cases h
    rfl
  | start r f nonblock => exact absurd rfl (hstart r f nonblock)
  | regRead r pending => exact absurd rfl (hread r pending)
  | signal r =>
    cases h
    exact s.pc_signal r q
  | timerFunc =>
    cases h
    exact s.pc_timerFunc q

theorem reader_start {r f : ℕ} {nonblock : Bool} (h : s.start r f nonblock = some s') :
    (s.reader r).pc = .out ∧
      ∀ q, s'.reader q = if q = r then ⟨.test, f, nonblock, true⟩ else s.reader q := by
  unfold Notifier.start at h
  split_ifs at h with hguard
  cases h
  exact ⟨hguard.1, fun q => reader_setReader r _ q⟩

theorem reader_regRead_ne {r : ℕ} {pending : Bool} (h : s.regRead r pending = some s') {q : ℕ}
    (hq : q ≠ r) : s'.reader q = s.reader q := by
  unfold regRead at h
  cases hpc : (s.reader r).pc with simp only [hpc] at h
  | out => cases h
  | test | setState | check | retry | schedule | clear | load =>
    cases h
    simp [goto, setPriv, reader_setReader, hq]
  | enqueue | blocked | finish =>
    split_ifs at h
    cases h
    simp [goto, reader_setReader, hq]

theorem finish_regRead {r : ℕ} {pending : Bool} (h : s.regRead r pending = some s') :
    (s'.reader r).pc = .finish ↔
      (s.reader r).pc = .retry ∧ ((s.reader r).nonblock ∨ pending) ∨ (s.reader r).pc = .load := by
  unfold regRead at h
  cases hpc : (s.reader r).pc with simp only [hpc] at h
  | out => cases h
  | setState | clear | load =>
    cases h
    simp [goto, setPriv, reader_setReader]
  | test | check | retry | schedule =>
    cases h
    simp only [goto, reader_setReader]
    split_ifs with hif <;> simp_all
  | enqueue | blocked | finish =>
    split_ifs at h
    cases h
    simp [goto, reader_setReader]

theorem pc_of_regRead {r : ℕ} {pending : Bool} (h : s.regRead r pending = some s')
    (hout : (s'.reader r).pc ≠ .out) : (s.reader r).pc ≠ .out ∧ (s.reader r).pc ≠ .finish := by
  unfold regRead at h
  constructor <;> intro hpc <;> simp only [hpc] at h
  · cases h
  · split_ifs at h
    cases h
    exact hout (by simp [reader_setReader])

end Notifier

/-! ## The contract -/

/-- The text fits `str`, the caller gets at most what it asked for, and the result is an error or
the number of bytes that were delivered. -/
structure Call.Contract (c : Call) : Prop where
  fits : c.str.length ≤ strSize
  copied : c.ubuf.length ≤ c.count
  ret : c.ret = if c.retval < 0 then c.retval else c.ubuf.length

/-- The number of digits of the counter. -/
def digits (d : UInt64) : ℕ := (Nat.toDigits 10 d.toNat).length

theorem length_sprintfLu (d : UInt64) : (sprintfLu d).length = digits d + 2 := by
  simp [sprintfLu, digits]

theorem toUInt8_ne_zero {c : Char} (h : c.isDigit = true) : c.toUInt8 ≠ 0 := by
  rw [Char.isDigit, Bool.and_eq_true, decide_eq_true_eq, decide_eq_true_eq] at h
  obtain ⟨hlo, hhi⟩ := h
  have hlo' : 48 ≤ c.val.toNat := hlo
  have hhi' : c.val.toNat ≤ 57 := hhi
  intro h0
  have h1 : c.val.toNat % 256 = 0 := congrArg UInt8.toNat h0
  omega

theorem strlen_sprintfLu (d : UInt64) : strlen (sprintfLu d) = digits d + 1 := by
  rw [sprintfLu, strlen_append]
  · simp [digits]
  · intro h
    rw [List.mem_append, List.mem_singleton, List.mem_map] at h
    obtain ⟨c, hc, h0⟩ | h0 := h
    · exact toUInt8_ne_zero (Nat.isDigit_of_mem_toDigits (by decide) (by decide) hc) h0
    · exact absurd h0 (by decide)

theorem digits_le_iff (d : UInt64) : digits d ≤ 8 ↔ d.toNat < 10 ^ 8 :=
  Nat.length_toDigits_le_iff (by decide) (by decide)

namespace Call

variable {c : Call}

theorem Contract.retval_nonneg (h : c.Contract) : 0 ≤ c.retval := by
  by_contra hneg
  have hret := h.ret
  rw [if_pos (by omega), Call.ret] at hret
  omega

theorem not_contract_giveUp {nonblock signal : Bool} (h : nonblock ∨ signal) :
    ¬(c.giveUp nonblock signal).Contract := by
  intro hc
  have hpos := hc.retval_nonneg
  unfold giveUp at hpos
  split_ifs at hpos with h₁ h₂
  · exact absurd hpos (by simp [eagain])
  · exact absurd hpos (by simp [erestartsys])
  · exact h.elim h₁ h₂

/-- **When the result of a call with data is right.** -/
theorem contract_deliver (hretval : c.retval = 0) (d : UInt64) (left : ℕ) :
    (c.deliver d left).Contract ↔ d.toNat < 10 ^ 8 ∧ digits d + 2 ≤ c.count ∧ left = 0 := by
  have hstr : (c.deliver d left).str.length = digits d + 2 := length_sprintfLu d
  have hlen : (c.deliver d left).len = digits d + 2 := congrArg (· + 1) (strlen_sprintfLu d)
  have hubuf : (c.deliver d left).ubuf.length = digits d + 2 - left := by
    show ((sprintfLu d).take (strlen (sprintfLu d) + 1 - left)).length = _
    rw [List.length_take, length_sprintfLu, strlen_sprintfLu]
    omega
  have hcount : (c.deliver d left).count = c.count := rfl
  have hval : (c.deliver d left).retval = if left = 0 then 0 else -efault := by
    rw [← hretval]
    rfl
  rw [← digits_le_iff]
  constructor
  · intro h
    have hleft : left = 0 := by
      by_contra hne
      have hpos := h.retval_nonneg
      rw [hval, if_neg hne] at hpos
      exact absurd hpos (by simp [efault])
    have hfits := h.fits
    have hcopied := h.copied
    rw [hstr, strSize] at hfits
    rw [hubuf, hcount] at hcopied
    omega
  · rintro ⟨hdigits, hle, rfl⟩
    refine ⟨?_, ?_, ?_⟩
    · rw [hstr, strSize]
      omega
    · rw [hubuf, hcount]
      exact hle
    · rw [hval, if_pos rfl, if_neg (Int.lt_irrefl 0), Call.ret, hlen, hubuf, Nat.sub_zero]

end Call

/-! ## The results of a run -/

/-- The next access of `reg_read` ends the call of `r`, before its `return`. -/
def Reads.Ends (s : Reads) (r : ℕ) (signal : Bool) : Prop :=
  (s.gld.reader r).pc = .retry ∧ ((s.gld.reader r).nonblock ∨ signal) ∨
    (s.gld.reader r).pc = .load

/-- The locals of a call that has returned or is about to. -/
def Reads.Done (s : Reads) (c : Call) : Prop :=
  c ∈ s.returned ∨ ∃ r, (s.gld.reader r).pc = .finish ∧ s.call r = c

/-- The result that a step adds. -/
def ReadAct.Adds (s : Reads) (a : ReadAct) (c : Call) : Prop :=
  match a with
  | .regRead r pending left => s.Ends r pending ∧ s.locals r pending left = c
  | .regOpen | .release _ | .start _ _ _ _ | .signal _ | .timerFunc => False

variable {s s' : Reads} {a : ReadAct}

/-- A call of a thread other than `r` that is about to return. -/
def Reads.Others (s : Reads) (r : ℕ) (c : Call) : Prop :=
  ∃ q, q ≠ r ∧ (s.gld.reader q).pc = .finish ∧ s.call q = c

/-- The results with thread `r` apart. -/
theorem Reads.done_iff (s : Reads) (r : ℕ) (c : Call) :
    s.Done c ↔
      c ∈ s.returned ∨ ((s.gld.reader r).pc = .finish ∧ s.call r = c) ∨ s.Others r c := by
  refine or_congr_right ⟨?_, ?_⟩
  · rintro ⟨q, hq⟩
    by_cases hqr : q = r
    · exact .inl (hqr ▸ hq)
    · exact .inr ⟨q, hqr, hq⟩
  · rintro (hr | ⟨q, -, hq⟩)
    · exact ⟨r, hr⟩
    · exact ⟨q, hq⟩

theorem Reads.others_congr {r : ℕ} (hreader : ∀ q, q ≠ r → s'.gld.reader q = s.gld.reader q)
    (hcall : ∀ q, q ≠ r → s'.call q = s.call q) (c : Call) : s'.Others r c ↔ s.Others r c := by
  refine exists_congr fun q => and_congr_right fun hq => ?_
  rw [hreader q hq, hcall q hq]

theorem Reads.done_start {r f : ℕ} {nonblock : Bool} {count : ℕ}
    (h : readStep s (.start r f nonblock count) = some s') (c : Call) : s'.Done c ↔ s.Done c := by
  obtain ⟨gld, hgld, rfl⟩ := Option.map_eq_some_iff.1 h
  obtain ⟨hout, hreader⟩ := Notifier.reader_start hgld
  have htest : (gld.reader r).pc = .test := by rw [hreader, if_pos rfl]
  rw [done_iff _ r, done_iff s r, others_congr (s := s) (fun q hq => (hreader q).trans (if_neg hq))
    fun q hq => Function.update_of_ne hq _ _]
  simp [htest, hout]

theorem Reads.done_regRead {r : ℕ} {pending : Bool} {left : ℕ}
    (h : readStep s (.regRead r pending left) = some s') (c : Call) :
    s'.Done c ↔ s.Done c ∨ s.Ends r pending ∧ s.locals r pending left = c := by
  obtain ⟨gld, hgld, rfl⟩ := Option.map_eq_some_iff.1 h
  have hfin : (gld.reader r).pc = .finish ↔ s.Ends r pending := Notifier.finish_regRead hgld
  rw [done_iff _ r, done_iff s r, others_congr (s := s)
    (fun q hq => Notifier.reader_regRead_ne hgld hq) fun q hq => Function.update_of_ne hq _ _]
  dsimp only
  rw [hfin, Function.update_self]
  split_ifs with hpc
  · rw [List.mem_append, List.mem_singleton, eq_comm (a := c)]
    tauto
  · tauto

theorem Reads.done_of_pc {gld : Notifier}
    (h : ∀ q, (gld.reader q).pc = (s.gld.reader q).pc) (c : Call) :
    ({ s with gld := gld } : Reads).Done c ↔ s.Done c := by
  refine or_congr_right (exists_congr fun q => ?_)
  rw [h]

/-- **The results that a step adds.** -/
theorem done_step (h : readStep s a = some s') (c : Call) : s'.Done c ↔ s.Done c ∨ a.Adds s c := by
  cases a with
  | start r f nonblock count => exact (Reads.done_start h c).trans (or_iff_left not_false).symm
  | regRead r pending left => exact Reads.done_regRead h c
  | regOpen | release f | signal r | timerFunc =>
    obtain ⟨gld, hgld, rfl⟩ := Option.map_eq_some_iff.1 h
    have hpc := Notifier.pc_step hgld (fun _ _ _ h => by cases h) (fun _ _ h => by cases h)
    exact (Reads.done_of_pc hpc c).trans (or_iff_left not_false).symm

/-- Until a call ends, no path has set `retval`. -/
def Reads.NoError (s : Reads) : Prop :=
  ∀ r, (s.gld.reader r).pc ≠ .out → (s.gld.reader r).pc ≠ .finish → (s.call r).retval = 0

theorem noError_init : Reads.init.NoError := fun _ h => absurd rfl h

theorem Reads.retval_locals {r : ℕ} {pending : Bool} (left : ℕ) (h : ¬s.Ends r pending) :
    (s.locals r pending left).retval = (s.call r).retval := by
  unfold Ends at h
  unfold locals
  split
  · next hpc =>
    rw [Call.giveUp, if_neg (by tauto), if_neg (by tauto)]
  · next hpc => exact absurd (.inr hpc) h
  all_goals rfl

theorem Reads.NoError.step (hs : s.NoError) (h : readStep s a = some s') : s'.NoError := by
  cases a with
  | start r f nonblock count =>
    obtain ⟨gld, hgld, rfl⟩ := Option.map_eq_some_iff.1 h
    obtain ⟨-, hreader⟩ := Notifier.reader_start hgld
    intro q hout hfin
    dsimp only at hout hfin ⊢
    by_cases hqr : q = r
    · rw [hqr, Function.update_self]
      rfl
    · rw [hreader, if_neg hqr] at hout hfin
      rw [Function.update_of_ne hqr]
      exact hs q hout hfin
  | regRead r pending left =>
    obtain ⟨gld, hgld, rfl⟩ := Option.map_eq_some_iff.1 h
    intro q hout hfin
    dsimp only at hout hfin ⊢
    by_cases hqr : q = r
    · subst hqr
      have hends : ¬s.Ends q pending := fun hends =>
        hfin ((Notifier.finish_regRead hgld).2 hends)
      obtain ⟨hout', hfin'⟩ := Notifier.pc_of_regRead hgld hout
      rw [Function.update_self, retval_locals left hends]
      exact hs q hout' hfin'
    · rw [Notifier.reader_regRead_ne hgld hqr] at hout hfin
      rw [Function.update_of_ne hqr]
      exact hs q hout hfin
  | regOpen | release f | signal r | timerFunc =>
    obtain ⟨gld, hgld, rfl⟩ := Option.map_eq_some_iff.1 h
    have hpc := Notifier.pc_step hgld (fun _ _ _ h => by cases h) (fun _ _ h => by cases h)
    intro q hout hfin
    dsimp only at hout hfin
    rw [hpc] at hout hfin
    exact hs q hout hfin

/-! ## The contract over a run -/

/-- The condition on a step: no call gives up; when a call formats the counter, the text fits `str`
and the caller's buffer, and `copy_to_user` copies all of it. -/
def ReadAct.Ok (s : Reads) (a : ReadAct) : Prop :=
  match a with
  | .regRead r pending left =>
    ((s.gld.reader r).pc = .retry → (s.gld.reader r).nonblock = false ∧ pending = false) ∧
    ((s.gld.reader r).pc = .load →
      s.gld.data.toNat < 10 ^ 8 ∧ digits s.gld.data + 2 ≤ (s.call r).count ∧ left = 0)
  | .regOpen | .release _ | .start _ _ _ _ | .signal _ | .timerFunc => True

/-- The result that a step adds meets the contract exactly when the step meets the condition. -/
theorem adds_contract_iff (hs : s.NoError) :
    (∀ c, a.Adds s c → c.Contract) ↔ a.Ok s := by
  cases a with
  | regRead r pending left =>
    simp only [ReadAct.Adds, ReadAct.Ok, Reads.Ends, Reads.locals]
    cases hpc : (s.gld.reader r).pc with
    | retry =>
      have hno : ¬((s.gld.reader r).nonblock = true ∨ pending = true) ↔
          (s.gld.reader r).nonblock = false ∧ pending = false := by simp
      simp only [true_and, or_false, forall_const, false_imp_iff, and_true, reduceCtorEq]
      rw [← hno]
      constructor
      · intro hall hgive
        exact Call.not_contract_giveUp hgive (hall _ ⟨hgive, rfl⟩)
      · rintro hno c ⟨hgive, -⟩
        exact absurd hgive hno
    | load =>
      have hretval : (s.call r).retval = 0 := hs r (by simp [hpc]) (by simp [hpc])
      simp only [false_and, false_or, true_and, forall_eq', forall_const, false_imp_iff,
        reduceCtorEq]
      exact Call.contract_deliver hretval _ _
    | out | test | enqueue | setState | check | schedule | blocked | clear | finish => simp
  | start r f nonblock count => simp [ReadAct.Adds, ReadAct.Ok]
  | regOpen | release f | signal r | timerFunc => simp [ReadAct.Adds, ReadAct.Ok]

/-- **The result contract of `reg_read`.** Every call that has returned or is about to return meets
the contract exactly when every step of the run meets the condition. -/
theorem contract_iff (l : List ReadAct) (s : Reads) (h : Lts.exec readStep .init l = some s) :
    (∀ c, s.Done c → c.Contract) ↔ Lts.Meets readStep (fun s a => a.Ok s) .init l := by
  have hinit : ∀ c, Reads.init.Done c → c.Contract := by
    rintro c (hmem | ⟨r, hpc, -⟩)
    · cases hmem
    · cases hpc
  refine Lts.exec_iff_meets (I := Reads.NoError) (P := fun s => ∀ c, s.Done c → c.Contract)
    (fun _ _ _ hI hs => hI.step hs) ?_ ?_ noError_init hinit h
  · intro s a s' hs hall c hc
    exact hall c ((done_step hs c).2 (.inl hc))
  · intro s a s' hI hP hs
    rw [← adds_contract_iff hI]
    constructor
    · intro hall c hc
      exact hall c ((done_step hs c).2 (.inr hc))
    · intro hadds c hc
      exact ((done_step hs c).1 hc).elim (hP c) (hadds c)

instance instDecidableReadOk (s : Reads) : ∀ a : ReadAct, Decidable (a.Ok s)
  | .regRead _ _ _ => inferInstanceAs (Decidable (_ ∧ _))
  | .regOpen | .release _ | .start _ _ _ _ | .signal _ | .timerFunc => isTrue trivial

/-- A tick with one open file, and a call that reads it. -/
def tickRead (count : ℕ) : List ReadAct :=
  .regOpen :: List.replicate 6 .timerFunc ++
    .start 0 0 false count :: List.replicate 4 (.regRead 0 false 0)

theorem exec_tickRead (d : UInt64) (count : ℕ) :
    (Lts.exec readStep (.ticked d) (tickRead count)).map Reads.returned =
      some [(Call.start count).deliver (d + 1) 0] := rfl

theorem contract_tickRead : ∃ s c, Lts.exec readStep .init (tickRead 100) = some s ∧
    c ∈ s.returned ∧ c.ret = 3 ∧ c.Contract := by
  obtain ⟨s, hs, hobs⟩ := Option.map_eq_some_iff.1 (exec_tickRead 0 100)
  have hmem : (Call.start 100).deliver 1 0 ∈ s.returned := by
    rw [hobs]
    exact List.mem_singleton_self _
  have hall := (contract_iff (tickRead 100) s hs).2 (by decide +kernel)
  exact ⟨s, _, hs, hmem, by decide +kernel, hall _ (.inl hmem)⟩

/-- **From 10⁸ ticks on, a call with data stores behind `str`**, whatever the caller asks for. -/
theorem overrun_of_ticks (n count : ℕ) (hn : 10 ^ 8 ≤ n + 1) (hlt : n + 1 < 2 ^ 64) :
    ∃ s c, Lts.exec readStep .init (List.replicate (5 * n) .timerFunc ++ tickRead count) = some s ∧
      c ∈ s.returned ∧ strSize < c.str.length := by
  obtain ⟨s, hs, hobs⟩ := Option.map_eq_some_iff.1 (exec_tickRead (.ofNat n) count)
  have hmem : (Call.start count).deliver (.ofNat n + 1) 0 ∈ s.returned := by
    rw [hobs]
    exact List.mem_singleton_self _
  refine ⟨s, _, ?_, hmem, ?_⟩
  · rw [Lts.exec_append, exec_ticks, Option.bind_some, hs]
  · have hval : (UInt64.ofNat n + 1).toNat = n + 1 := by
      rw [UInt64.toNat_add, UInt64.toNat_ofNat']
      show (n % 2 ^ 64 + 1) % 2 ^ 64 = n + 1
      omega
    have hdigits : ¬digits (.ofNat n + 1) ≤ 8 := by
      rw [digits_le_iff, hval]
      omega
    show strSize < (sprintfLu (.ofNat n + 1)).length
    rw [length_sprintfLu, strSize]
    omega

/-- A call with `O_NONBLOCK` on a file without data. -/
def nonblockRead : List ReadAct :=
  .regOpen :: .start 0 0 true 100 :: List.replicate 6 (.regRead 0 false 0)

/-- **A call that gives up returns 0, not `-EAGAIN`.** -/
theorem nonblockRead_returns_zero : ∃ s c, Lts.exec readStep .init nonblockRead = some s ∧
    c ∈ s.returned ∧ c.retval = -eagain ∧ c.ret = 0 ∧ ¬c.Contract := by
  have hrun : (Lts.exec readStep .init nonblockRead).map Reads.returned =
      some [⟨100, -eagain, [], 0, []⟩] := by decide
  obtain ⟨s, hs, hobs⟩ := Option.map_eq_some_iff.1 hrun
  refine ⟨s, ⟨100, -eagain, [], 0, []⟩, hs, ?_, rfl, rfl, fun hc => ?_⟩
  · rw [hobs]
    exact List.mem_singleton_self _
  · exact absurd hc.retval_nonneg (by decide)

end LddExample.ListHead
