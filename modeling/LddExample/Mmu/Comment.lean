import Mathlib.Data.List.Basic
import Mathlib.Data.List.Infix
import Mathlib.Order.Basic

/-!
# Comments in the configuration file

`xstr.rmCmt` cuts a line at the first `//` that has an even number of quotes before it. A quote
that `isEscapeOpr` calls escaped does not count; it looks at the text between the last cut and the
quote, and raises `IndexError` when that text is a row of backslashes.

* `rmCmt`: the model of the two loops.
* `inString`, `IsComment`, `stripped`: what the method is for.
* `quoteOpen`, `crash`: what it computes, character by character (`rmCmt_cases`).
* `Readable`: the lines on which both agree. Before each `//` that decides, an even number of quotes
  outside a string is preceded by an odd row of backslashes, and no row of backslashes before a
  quote begins at a cut.
* **`rmCmt_eq_stripped_iff`**: the comment is stripped exactly from the readable lines.
-/

namespace LddExample.Mmu.Comment

/-! ## The methods -/

/-- The exception that the methods can end with. -/
inductive PyErr
  | indexError
deriving DecidableEq

/-- The loop of `isEscapeOpr`, on the text read backwards. -/
def countBackslashes : List Char → ℕ → Except PyErr ℕ
  | [], _ => .error .indexError
  | c :: s, cnt => if c = '\\' then countBackslashes s (cnt + 1) else .ok cnt

/-- `isEscapeOpr(instr)` -/
def isEscapeOpr (instr : List Char) : Except PyErr Bool :=
  if instr.length ≤ 0 then .ok false
  else (countBackslashes instr.reverse 0).bind fun cnt => .ok (cnt % 2 = 1)

/-- `s.find('"')` -/
def findQuote : List Char → Option ℕ
  | [] => none
  | c :: s => if c = '"' then some 0 else (findQuote s).map (· + 1)

/-- `s.find('//')` -/
def findSlashes : List Char → Option ℕ
  | [] => none
  | c :: s => if ['/', '/'] <+: c :: s then some 0 else (findSlashes s).map (· + 1)

theorem findQuote_eq_some {s : List Char} {n : ℕ} (h : findQuote s = some n) :
    ∃ head rest, s = head ++ '"' :: rest ∧ head.length = n ∧ '"' ∉ head := by
  induction s generalizing n with
  | nil => cases h
  | cons c s ih =>
    rw [findQuote] at h
    split_ifs at h with hc
    · cases h
      exact ⟨[], s, by rw [hc]; rfl, rfl, List.not_mem_nil⟩
    · obtain ⟨m, hm, rfl⟩ := Option.map_eq_some_iff.1 h
      obtain ⟨head, rest, rfl, rfl, hnot⟩ := ih hm
      exact ⟨c :: head, rest, rfl, rfl, List.not_mem_cons_of_ne_of_not_mem (Ne.symm hc) hnot⟩

theorem findQuote_eq_none {s : List Char} (h : findQuote s = none) : '"' ∉ s := by
  induction s with
  | nil => exact List.not_mem_nil
  | cons c s ih =>
    rw [findQuote] at h
    split_ifs at h with hc
    intro hmem
    obtain hq | hq := List.mem_cons.1 hmem
    · exact hc hq.symm
    · exact ih (Option.map_eq_none_iff.1 h) hq

/-- The inner loop of `rmCmt` -/
def quoteLoop (headLine : List Char) (qtCnt : ℕ) : Except PyErr ℕ :=
  match h : findQuote headLine with
  | none => .ok qtCnt
  | some qtPos =>
    (isEscapeOpr (headLine.take qtPos)).bind fun escape =>
    quoteLoop (headLine.drop (qtPos + 1)) (if ¬escape then qtCnt + 1 else qtCnt)
termination_by headLine.length
decreasing_by
  obtain ⟨head, rest, rfl, rfl, -⟩ := findQuote_eq_some h
  simp
  omega

theorem findSlashes_eq_some {s : List Char} {n : ℕ} (h : findSlashes s = some n) :
    ∃ head rest, s = head ++ '/' :: '/' :: rest ∧ head.length = n ∧
      ¬['/', '/'] <:+: head ++ ['/'] := by
  induction s generalizing n with
  | nil => cases h
  | cons c s ih =>
    rw [findSlashes] at h
    split_ifs at h with hc
    · cases h
      obtain ⟨rest, hrest⟩ := hc
      refine ⟨[], rest, hrest.symm, rfl, fun hin => ?_⟩
      have := hin.length_le
      simp at this
    · obtain ⟨m, hm, rfl⟩ := Option.map_eq_some_iff.1 h
      obtain ⟨head, rest, rfl, rfl, hnot⟩ := ih hm
      refine ⟨c :: head, rest, rfl, rfl, fun hin => ?_⟩
      rw [List.cons_append, List.infix_cons_iff] at hin
      obtain hpre | hin := hin
      · exact hc (hpre.trans ⟨'/' :: rest, by simp⟩)
      · exact hnot hin

theorem findSlashes_eq_none {s : List Char} (h : findSlashes s = none) : ¬['/', '/'] <:+: s := by
  induction s with
  | nil => exact fun hin => absurd hin.length_le (by simp)
  | cons c s ih =>
    rw [findSlashes] at h
    split_ifs at h with hc
    rw [List.infix_cons_iff]
    rintro (hpre | hin)
    · exact hc hpre
    · exact ih (Option.map_eq_none_iff.1 h) hin

/-- The outer loop of `rmCmt` -/
def rmCmtLoop (instr rearLine : List Char) (qtCnt cmtPos : ℕ) : Except PyErr (List Char) :=
  match h : findSlashes rearLine with
  | none => .ok instr
  | some slashPos =>
    (quoteLoop (rearLine.take slashPos) qtCnt).bind fun qtCnt =>
    if qtCnt % 2 = 0 then .ok (instr.take (cmtPos + slashPos))
    else rmCmtLoop instr (rearLine.drop (slashPos + 2)) qtCnt (cmtPos + slashPos + 2)
termination_by rearLine.length
decreasing_by
  obtain ⟨head, rest, rfl, rfl, -⟩ := findSlashes_eq_some h
  simp
  omega

/-- `xstr(instr).rmCmt()` -/
def rmCmt (instr : List Char) : Except PyErr (List Char) :=
  rmCmtLoop instr instr 0 0

/-! ## What the method is for -/

/-- The length of the row of `c` that ends a text; the text is read backwards. -/
def row (c : Char) (before : List Char) : ℕ :=
  (before.takeWhile (· = c)).length

/-- The text before place `i`, read backwards. -/
def before (line : List Char) (i : ℕ) : List Char :=
  (line.take i).reverse

/-- The place after this text is in a JSON string. A quote in a string closes it unless an odd row
of backslashes stands before it. -/
def inString : List Char → Bool
  | [] => false
  | c :: r => if c = '"' then if inString r then row '\\' r % 2 = 1 else true else inString r

/-- `//` stands at place `i`. -/
def SlashesAt (line : List Char) (i : ℕ) : Prop :=
  ['/', '/'] <+: line.drop i

instance (line : List Char) (i : ℕ) : Decidable (SlashesAt line i) :=
  inferInstanceAs (Decidable (_ <+: _))

/-- A `//` outside every string. -/
def IsComment (line : List Char) (i : ℕ) : Prop :=
  SlashesAt line i ∧ inString (before line i) = false

instance (line : List Char) (i : ℕ) : Decidable (IsComment line i) :=
  inferInstanceAs (Decidable (_ ∧ _))

/-- **The line up to its comment.** -/
def stripped (line : List Char) : List Char :=
  match (List.range line.length).find? fun i => IsComment line i with
  | none => line
  | some i => line.take i

/-! ## What it computes -/

/-- An odd number of quotes in this text is not escaped. -/
def quoteOpen : List Char → Bool
  | [] => false
  | c :: r => if c = '"' ∧ row '\\' r % 2 = 0 then !quoteOpen r else quoteOpen r

/-- The row of backslashes before a quote begins at a cut: at the start of the line, after another
quote or after a pair of slashes. -/
def CutBackslashes (r : List Char) : Prop :=
  let cut := r.drop (row '\\' r)
  0 < row '\\' r ∧ (cut = [] ∨ cut.head? = some '"' ∨ 0 < row '/' cut ∧ row '/' cut % 2 = 0)

instance (r : List Char) : Decidable (CutBackslashes r) :=
  inferInstanceAs (Decidable (_ ∧ _))

/-- A row of backslashes before a quote of this text begins at a cut. -/
def crash : List Char → Bool
  | [] => false
  | c :: r => crash r || decide (c = '"' ∧ CutBackslashes r)

/-- The quotes outside a string that an odd row of backslashes stands before. -/
def strays : List Char → ℕ
  | [] => 0
  | c :: r => strays r + if c = '"' ∧ inString r = false ∧ row '\\' r % 2 = 1 then 1 else 0

/-- **The lines that are read as JSON.** -/
def Readable (line : List Char) : Prop :=
  ∀ i, SlashesAt line i → (∀ j < i, ¬IsComment line j) →
    strays (before line i) % 2 = 0 ∧ crash (before line i) = false

/-! ## Rows of a character -/

theorem row_cons (c d : Char) (r : List Char) :
    row c (d :: r) = if d = c then row c r + 1 else 0 := by
  rw [row, List.takeWhile_cons]
  by_cases h : d = c
  · simp [h, row]
  · simp [h]

theorem row_append_of_all {c : Char} {k : List Char} (h : ∀ d ∈ k, d = c) (r : List Char) :
    row c (k ++ r) = k.length + row c r := by
  induction k with
  | nil => simp
  | cons d k ih =>
    rw [List.cons_append, row_cons, if_pos (h d List.mem_cons_self),
      ih fun e he => h e (List.mem_cons_of_mem _ he), List.length_cons]
    omega

theorem exists_of_not_all {c : Char} {k : List Char} (h : ¬∀ d ∈ k, d = c) :
    ∃ pre d tail, k = pre ++ d :: tail ∧ (∀ e ∈ pre, e = c) ∧ d ≠ c := by
  induction k with
  | nil => exact absurd (fun d hd => nomatch hd) h
  | cons d k ih =>
    by_cases hd : d = c
    · obtain ⟨pre, e, tail, rfl, hpre, he⟩ := ih fun hall => h fun e he => by
        obtain rfl | he := List.mem_cons.1 he
        · exact hd
        · exact hall e he
      refine ⟨d :: pre, e, tail, rfl, fun f hf => ?_, he⟩
      obtain rfl | hf := List.mem_cons.1 hf
      · exact hd
      · exact hpre f hf
    · exact ⟨[], d, k, rfl, fun e he => absurd he List.not_mem_nil, hd⟩

theorem row_append_of_ne {c d : Char} {pre : List Char} (hpre : ∀ e ∈ pre, e = c) (hd : d ≠ c)
    (tail : List Char) : row c (pre ++ d :: tail) = pre.length := by
  rw [row_append_of_all hpre, row_cons, if_neg hd, Nat.add_zero]

/-! ## Escapes -/

theorem countBackslashes_of_all {k : List Char} (h : ∀ d ∈ k, d = '\\') (cnt : ℕ) :
    countBackslashes k cnt = .error .indexError := by
  induction k generalizing cnt with
  | nil => rfl
  | cons d k ih =>
    rw [countBackslashes, if_pos (h d List.mem_cons_self)]
    exact ih (fun e he => h e (List.mem_cons_of_mem _ he)) (cnt + 1)

theorem countBackslashes_append {d : Char} {pre : List Char} (hpre : ∀ e ∈ pre, e = '\\')
    (hd : d ≠ '\\') (tail : List Char) (cnt : ℕ) :
    countBackslashes (pre ++ d :: tail) cnt = .ok (cnt + pre.length) := by
  induction pre generalizing cnt with
  | nil => exact if_neg hd
  | cons e pre ih =>
    rw [List.cons_append, countBackslashes, if_pos (hpre e List.mem_cons_self),
      ih (fun f hf => hpre f (List.mem_cons_of_mem _ hf)), List.length_cons]
    congr 1
    omega

/-- The text before this place ends at a cut. -/
structure AtCut (r : List Char) : Prop where
  backslash : row '\\' r = 0
  slash : row '/' r % 2 = 0
  edge : r = [] ∨ r.head? = some '"' ∨ r.head? = some '/'

theorem AtCut.nil : AtCut [] := ⟨rfl, rfl, .inl rfl⟩

theorem AtCut.quote (r : List Char) : AtCut ('"' :: r) where
  backslash := by rw [row_cons]; rfl
  slash := by rw [row_cons]; rfl
  edge := .inr (.inl rfl)

theorem AtCut.edge_cases {r : List Char} (hr : AtCut r) :
    r = [] ∨ r.head? = some '"' ∨ 0 < row '/' r ∧ row '/' r % 2 = 0 := by
  obtain h | h | h := hr.edge
  · exact .inl h
  · exact .inr (.inl h)
  · obtain ⟨r, rfl⟩ := List.head?_eq_some_iff.1 h
    refine .inr (.inr ⟨?_, hr.slash⟩)
    rw [row_cons, if_pos rfl]
    exact Nat.succ_pos _

/-- A single slash after a cut is not a pair. -/
theorem AtCut.row_slash_odd {r : List Char} (hr : AtCut r) {tail : List Char}
    (h : tail.head? ≠ some '/') : row '/' ('/' :: (tail ++ r)) % 2 = 1 := by
  have hslash := hr.slash
  rw [row_cons, if_pos rfl]
  cases tail with
  | nil =>
    rw [List.nil_append]
    omega
  | cons c tail =>
    rw [List.cons_append, row_cons, if_neg fun hc => h (by rw [hc]; rfl)]

theorem AtCut.not_cutBackslashes {r : List Char} (hr : AtCut r) {s pre tail : List Char} {d : Char}
    (hq : '"' ∉ s) (hs : ¬['/', '/'] <:+: s) (hk : s.reverse = pre ++ d :: tail)
    (hpre : ∀ e ∈ pre, e = '\\') (hd : d ≠ '\\') : ¬CutBackslashes (s.reverse ++ r) := by
  rw [hk, List.append_assoc, List.cons_append]
  rintro ⟨-, hedge⟩
  rw [row_append_of_ne hpre hd, List.drop_left] at hedge
  obtain hedge | hedge | ⟨hpos, heven⟩ := hedge
  · cases hedge
  · have hmem : d ∈ s := by
      rw [← List.mem_reverse, hk]
      exact List.mem_append_right _ List.mem_cons_self
    cases hedge
    exact hq hmem
  · rw [row_cons] at hpos
    split_ifs at hpos with hslash
    · subst hslash
      have hhead : tail.head? ≠ some '/' := by
        intro hhead
        obtain ⟨rest, rfl⟩ := List.head?_eq_some_iff.1 hhead
        refine hs (List.reverse_infix.1 ?_)
        rw [hk]
        exact ⟨pre, rest, by simp⟩
      have := hr.row_slash_odd hhead
      omega
    · omega

theorem isEscapeOpr_of_all {r s : List Char} (hr : AtCut r) (hall : ∀ d ∈ s.reverse, d = '\\') :
    isEscapeOpr s = if CutBackslashes (s.reverse ++ r) then .error .indexError
      else .ok (row '\\' (s.reverse ++ r) % 2 = 1) := by
  have hrow : row '\\' (s.reverse ++ r) = s.length := by
    rw [row_append_of_all hall, hr.backslash, List.length_reverse, Nat.add_zero]
  have hdrop : (s.reverse ++ r).drop s.length = r := List.drop_left' List.length_reverse
  by_cases hnil : s.length ≤ 0
  · rw [isEscapeOpr, if_pos hnil, if_neg, hrow]
    · rw [show s.length = 0 by omega]
      rfl
    · rintro ⟨hpos, -⟩
      omega
  · have hcut : CutBackslashes (s.reverse ++ r) := by
      refine ⟨by omega, ?_⟩
      rw [hrow, hdrop]
      exact hr.edge_cases
    rw [isEscapeOpr, if_neg hnil, countBackslashes_of_all hall, if_pos hcut]
    rfl

theorem isEscapeOpr_of_not_all {r s : List Char} (hr : AtCut r) (hq : '"' ∉ s)
    (hs : ¬['/', '/'] <:+: s) (hall : ¬∀ d ∈ s.reverse, d = '\\') :
    isEscapeOpr s = if CutBackslashes (s.reverse ++ r) then .error .indexError
      else .ok (row '\\' (s.reverse ++ r) % 2 = 1) := by
  obtain ⟨pre, d, tail, hk, hpre, hd⟩ := exists_of_not_all hall
  have hnil : ¬s.length ≤ 0 := by
    rw [← List.length_reverse, hk, List.length_append, List.length_cons]
    omega
  have hrow : row '\\' (s.reverse ++ r) = pre.length := by
    rw [hk, List.append_assoc, List.cons_append, row_append_of_ne hpre hd]
  have hcut := hr.not_cutBackslashes hq hs hk hpre hd
  rw [if_neg hcut, hrow, isEscapeOpr, if_neg hnil, hk, countBackslashes_append hpre hd,
    Nat.zero_add]
  rfl

/-- **What `isEscapeOpr` sees between a cut and a quote.** -/
theorem isEscapeOpr_spec {r s : List Char} (hr : AtCut r) (hq : '"' ∉ s)
    (hs : ¬['/', '/'] <:+: s) :
    isEscapeOpr s = if CutBackslashes (s.reverse ++ r) then .error .indexError
      else .ok (row '\\' (s.reverse ++ r) % 2 = 1) := by
  by_cases hall : ∀ d ∈ s.reverse, d = '\\'
  · exact isEscapeOpr_of_all hr hall
  · exact isEscapeOpr_of_not_all hr hq hs hall

/-! ## The quotes before a `//` -/

theorem quoteOpen_append {k : List Char} (h : '"' ∉ k) (r : List Char) :
    quoteOpen (k ++ r) = quoteOpen r := by
  induction k with
  | nil => rfl
  | cons c k ih =>
    have hc : c ≠ '"' := fun hc => h (hc ▸ List.mem_cons_self)
    rw [List.cons_append, quoteOpen, if_neg fun hq => hc hq.1]
    exact ih fun hk => h (List.mem_cons_of_mem _ hk)

theorem crash_append {k : List Char} (h : '"' ∉ k) (r : List Char) : crash (k ++ r) = crash r := by
  induction k with
  | nil => rfl
  | cons c k ih =>
    have hc : c ≠ '"' := fun hc => h (hc ▸ List.mem_cons_self)
    rw [List.cons_append, crash, ih fun hk => h (List.mem_cons_of_mem _ hk)]
    simp [hc]

theorem crash_mono (k : List Char) {r : List Char} (h : crash r = true) :
    crash (k ++ r) = true := by
  induction k with
  | nil => exact h
  | cons c k ih =>
    rw [List.cons_append, crash, ih]
    rfl

/-- **The inner loop counts the quotes that are not escaped, or fails at a row of backslashes that
begins at a cut.** -/
theorem quoteLoop_spec (head : List Char) (qtCnt : ℕ) (r : List Char) (hr : AtCut r)
    (hs : ¬['/', '/'] <:+: head) (hcnt : qtCnt % 2 = 1 ↔ quoteOpen r = true)
    (hcrash : crash r = false) :
    if crash (head.reverse ++ r) then quoteLoop head qtCnt = .error .indexError
    else ∃ cnt, quoteLoop head qtCnt = .ok cnt ∧
      (cnt % 2 = 1 ↔ quoteOpen (head.reverse ++ r) = true) := by
  fun_induction quoteLoop head qtCnt generalizing r with
  | case1 head qtCnt h =>
    have hq : '"' ∉ head.reverse := fun hm => findQuote_eq_none h (List.mem_reverse.1 hm)
    rw [crash_append hq, hcrash, quoteOpen_append hq]
    exact ⟨qtCnt, rfl, hcnt⟩
  | case2 head qtCnt qtPos h ih =>
    obtain ⟨slice, rest, rfl, rfl, hq⟩ := findQuote_eq_some h
    have hslice : ¬['/', '/'] <:+: slice := fun hin => hs (hin.trans ⟨[], '"' :: rest, rfl⟩)
    have hrest : ¬['/', '/'] <:+: rest := fun hin => hs (hin.trans ⟨slice ++ ['"'], [], by simp⟩)
    have hqr : '"' ∉ slice.reverse := fun hm => hq (List.mem_reverse.1 hm)
    have htake : (slice ++ '"' :: rest).take slice.length = slice := List.take_left
    have hdrop : (slice ++ '"' :: rest).drop (slice.length + 1) = rest := by simp
    have hsplit : (slice ++ '"' :: rest).reverse ++ r =
        rest.reverse ++ '"' :: (slice.reverse ++ r) := by simp
    rw [htake, isEscapeOpr_spec hr hq hslice, hsplit]
    rw [hdrop] at ih ⊢
    by_cases hcut : CutBackslashes (slice.reverse ++ r)
    · have hc : crash ('"' :: (slice.reverse ++ r)) = true := by
        rw [crash]
        simp [hcut]
      rw [if_pos hcut, crash_mono _ hc]
      rfl
    · have hc : crash ('"' :: (slice.reverse ++ r)) = false := by
        rw [crash, crash_append hqr, hcrash]
        simp [hcut]
      rw [if_neg hcut]
      refine ih _ _ (AtCut.quote _) hrest ?_ hc
      rw [quoteOpen, quoteOpen_append hqr]
      obtain hodd | heven := (Nat.mod_two_eq_zero_or_one (row '\\' (slice.reverse ++ r))).symm
      · simpa [hodd] using hcnt
      · rw [if_pos ⟨rfl, heven⟩, Bool.not_eq_true', Bool.eq_false_iff, Ne, ← hcnt]
        simp [heven]
        omega

/-! ## Where the outer loop ends -/

/-- The outer loop ends at this `//`. -/
def Stops (line : List Char) (i : ℕ) : Prop :=
  SlashesAt line i ∧ (crash (before line i) = true ∨ quoteOpen (before line i) = false)

/-- The `//` at which it ends, and what it gives there. -/
def StopsWith (line : List Char) (i : ℕ) (out : Except PyErr (List Char)) : Prop :=
  Stops line i ∧ (∀ j < i, ¬Stops line j) ∧
    out = if crash (before line i) then .error .indexError else .ok (line.take i)

theorem before_append (r s : List Char) (j : ℕ) :
    before (r.reverse ++ s) (r.length + j) = before s j ++ r := by
  rw [before, before, ← List.length_reverse, List.take_length_add_append, List.reverse_append,
    List.reverse_reverse]

theorem slashesAt_append (r s : List Char) (j : ℕ) :
    SlashesAt (r.reverse ++ s) (r.length + j) ↔ SlashesAt s j := by
  rw [SlashesAt, SlashesAt, ← List.length_reverse, List.drop_length_add_append]

theorem SlashesAt.isInfix {s : List Char} {j : ℕ} (h : SlashesAt s j) : ['/', '/'] <:+: s :=
  List.IsInfix.trans (List.IsPrefix.isInfix h) (List.drop_suffix j s).isInfix

theorem not_slashesAt_of_lt {head rest : List Char} (h : ¬['/', '/'] <:+: head ++ ['/']) {j : ℕ}
    (hj : j < head.length) : ¬SlashesAt (head ++ '/' :: '/' :: rest) j := by
  intro hs
  have hdrop : (head ++ '/' :: '/' :: rest).drop j = (head ++ ['/']).drop j ++ '/' :: rest := by
    rw [← List.drop_append_of_le_length (by simp; omega), List.append_assoc]
    rfl
  have hlen : ['/', '/'].length ≤ ((head ++ ['/']).drop j).length := by
    simp
    omega
  rw [SlashesAt, hdrop] at hs
  exact h (SlashesAt.isInfix (List.prefix_of_prefix_length_le hs (List.prefix_append _ _) hlen))

theorem crash_slash (r : List Char) : crash ('/' :: r) = crash r :=
  crash_append (k := ['/']) (by decide) r

theorem quoteOpen_slash (r : List Char) : quoteOpen ('/' :: r) = quoteOpen r :=
  quoteOpen_append (k := ['/']) (by decide) r

theorem AtCut.slashes {head r : List Char} (hr : AtCut r) (h : ¬['/', '/'] <:+: head ++ ['/']) :
    AtCut ('/' :: '/' :: (head.reverse ++ r)) where
  backslash := by
    rw [row_cons]
    rfl
  slash := by
    have hhead : head.reverse.head? ≠ some '/' := by
      intro hhead
      obtain ⟨rest, hrest⟩ := List.head?_eq_some_iff.1 hhead
      rw [List.reverse_eq_iff, List.reverse_cons] at hrest
      exact h ⟨rest.reverse, [], by rw [hrest]; simp⟩
    have := hr.row_slash_odd hhead
    rw [row_cons, if_pos rfl]
    omega
  edge := .inr (.inr rfl)

/-- The outer loop has passed the text `r` of the line; `rear` is left. -/
structure Passed (line r rear : List Char) : Prop where
  line_eq : line = r.reverse ++ rear
  atCut : AtCut r
  no_crash : crash r = false
  not_stops : ∀ i < r.length, ¬Stops line i

theorem Passed.nil (line : List Char) : Passed line [] line :=
  ⟨rfl, .nil, rfl, fun i hi => absurd hi (Nat.not_lt_zero i)⟩

theorem Passed.not_stops_of {line r rear : List Char} (h : Passed line r rear) {i : ℕ}
    (hrear : ∀ j, i = r.length + j → ¬SlashesAt rear j) : ¬Stops line i := by
  intro hstop
  obtain hlt | hge := Nat.lt_or_ge i r.length
  · exact h.not_stops i hlt hstop
  · obtain ⟨j, rfl⟩ := Nat.exists_eq_add_of_le hge
    have hslashes := hstop.1
    rw [h.line_eq, slashesAt_append] at hslashes
    exact hrear j rfl hslashes

section Slashes

variable {line r head rest : List Char}

theorem Passed.before_slashes (h : Passed line r (head ++ '/' :: '/' :: rest)) :
    before line (r.length + head.length) = head.reverse ++ r := by
  rw [h.line_eq, before_append, before, List.take_left]

theorem Passed.slashesAt (h : Passed line r (head ++ '/' :: '/' :: rest)) :
    SlashesAt line (r.length + head.length) := by
  rw [h.line_eq, slashesAt_append, SlashesAt, List.drop_left]
  exact ⟨rest, rfl⟩

theorem Passed.not_stops_of_lt (h : Passed line r (head ++ '/' :: '/' :: rest))
    (hfirst : ¬['/', '/'] <:+: head ++ ['/']) {i : ℕ} (hi : i < r.length + head.length) :
    ¬Stops line i := by
  apply h.not_stops_of
  intro j hj
  exact not_slashesAt_of_lt hfirst (by omega)

theorem Passed.stopsWith (h : Passed line r (head ++ '/' :: '/' :: rest))
    (hfirst : ¬['/', '/'] <:+: head ++ ['/'])
    (hend : crash (head.reverse ++ r) = true ∨ quoteOpen (head.reverse ++ r) = false) :
    StopsWith line (r.length + head.length)
      (if crash (head.reverse ++ r) then .error .indexError
        else .ok (line.take (r.length + head.length))) := by
  refine ⟨⟨h.slashesAt, ?_⟩, fun i hi => h.not_stops_of_lt hfirst hi, ?_⟩
  · rw [h.before_slashes]
    exact hend
  · rw [h.before_slashes]

theorem Passed.next (h : Passed line r (head ++ '/' :: '/' :: rest))
    (hfirst : ¬['/', '/'] <:+: head ++ ['/']) (hcrash : crash (head.reverse ++ r) = false)
    (hopen : quoteOpen (head.reverse ++ r) = true) :
    Passed line ('/' :: '/' :: (head.reverse ++ r)) rest where
  line_eq := by
    rw [h.line_eq]
    simp
  atCut := h.atCut.slashes hfirst
  no_crash := by rw [crash_slash, crash_slash, hcrash]
  not_stops := by
    rintro i hi ⟨hslashes, hend⟩
    rw [List.length_cons, List.length_cons, List.length_append, List.length_reverse] at hi
    have hsecond : before line (r.length + (head.length + 1)) = '/' :: (head.reverse ++ r) := by
      rw [h.line_eq, before_append, before, List.take_length_add_append, List.reverse_append]
      rfl
    obtain hlt | rfl | rfl : i < r.length + head.length ∨ i = r.length + head.length ∨
        i = r.length + (head.length + 1) := by omega
    · exact h.not_stops_of_lt hfirst hlt ⟨hslashes, hend⟩
    · rw [h.before_slashes, hcrash, hopen] at hend
      simp at hend
    · rw [hsecond, crash_slash, quoteOpen_slash, hcrash, hopen] at hend
      simp at hend

end Slashes

/-- **The outer loop ends at the first `//` before which it fails or the quotes are even.** -/
theorem rmCmtLoop_spec (line rearLine : List Char) (qtCnt cmtPos : ℕ) (r : List Char)
    (h : Passed line r rearLine) (hcnt : qtCnt % 2 = 1 ↔ quoteOpen r = true)
    (hpos : cmtPos = r.length) :
    rmCmtLoop line rearLine qtCnt cmtPos = .ok line ∧ (∀ i, ¬Stops line i) ∨
      ∃ i, StopsWith line i (rmCmtLoop line rearLine qtCnt cmtPos) := by
  fun_induction rmCmtLoop line rearLine qtCnt cmtPos generalizing r with
  | case1 rearLine qtCnt cmtPos hfind =>
    refine .inl ⟨rfl, fun i => h.not_stops_of fun j _ hslashes => ?_⟩
    exact findSlashes_eq_none hfind hslashes.isInfix
  | case2 rearLine qtCnt cmtPos slashPos hfind ih =>
    obtain ⟨head, rest, rfl, rfl, hfirst⟩ := findSlashes_eq_some hfind
    have hhead : ¬['/', '/'] <:+: head := fun hin => hfirst (hin.trans ⟨[], ['/'], rfl⟩)
    have htake : (head ++ '/' :: '/' :: rest).take head.length = head := List.take_left
    have hdrop : (head ++ '/' :: '/' :: rest).drop (head.length + 2) = rest := by simp
    have hquotes := quoteLoop_spec head qtCnt r h.atCut hhead hcnt h.no_crash
    rw [htake]
    rw [hdrop] at ih ⊢
    split_ifs at hquotes with hcrash
    · have hstop := h.stopsWith hfirst (.inl hcrash)
      rw [if_pos hcrash] at hstop
      rw [hquotes]
      exact .inr ⟨_, hstop⟩
    · obtain ⟨cnt, hloop, hodd⟩ := hquotes
      rw [hloop, Except.bind]
      by_cases heven : cnt % 2 = 0
      · have hopen : quoteOpen (head.reverse ++ r) = false := by
          rw [← Bool.not_eq_true, ← hodd]
          omega
        have hstop := h.stopsWith hfirst (.inr hopen)
        rw [if_neg hcrash] at hstop
        rw [if_pos heven, hpos]
        exact .inr ⟨_, hstop⟩
      · have hopen : quoteOpen (head.reverse ++ r) = true := hodd.1 (by omega)
        rw [if_neg heven]
        refine ih cnt _ (h.next hfirst (Bool.eq_false_iff.2 hcrash) hopen) ?_ ?_
        · rw [quoteOpen_slash, quoteOpen_slash]
          exact hodd
        · rw [hpos]
          simp
          omega

/-- **A line is cut at the first `//` before which the quotes are even, unless it fails there.** -/
theorem rmCmt_cases (line : List Char) :
    rmCmt line = .ok line ∧ (∀ i, ¬Stops line i) ∨ ∃ i, StopsWith line i (rmCmt line) :=
  rmCmtLoop_spec line line 0 0 [] (.nil line) (by decide) rfl

/-! ## The two readings of a line -/

/-- The methods take a stray quote for no quote. -/
theorem quoteOpen_eq (r : List Char) : quoteOpen r = (inString r ^^ decide (strays r % 2 = 1)) := by
  induction r with
  | nil => rfl
  | cons c r ih =>
    rw [quoteOpen, inString, strays, ih]
    by_cases hc : c = '"'
    · have hparity := Nat.mod_two_eq_zero_or_one (strays r)
      cases hin : inString r
      · obtain heven | hodd := Nat.mod_two_eq_zero_or_one (row '\\' r)
        · simp [hc, heven]
        · obtain h | h := hparity
          · have : (strays r + 1) % 2 = 1 := by omega
            simp [hc, hodd, h, this]
          · have : (strays r + 1) % 2 = 0 := by omega
            simp [hc, hodd, h, this]
      · obtain heven | hodd := Nat.mod_two_eq_zero_or_one (row '\\' r)
        · simp [hc, heven]
        · simp [hc, hodd]
    · simp [hc]

theorem SlashesAt.lt {line : List Char} {i : ℕ} (h : SlashesAt line i) : i < line.length := by
  have := h.length_le
  rw [List.length_drop, List.length_cons] at this
  omega

theorem stripped_cases (line : List Char) :
    stripped line = line ∧ (∀ i, ¬IsComment line i) ∨
      ∃ i, IsComment line i ∧ (∀ j < i, ¬IsComment line j) ∧ stripped line = line.take i := by
  rw [stripped]
  split
  case h_1 h =>
    refine .inl ⟨rfl, fun i hi => ?_⟩
    have := List.find?_eq_none.1 h i (List.mem_range.2 hi.1.lt)
    exact this (decide_eq_true hi)
  case h_2 i h =>
    obtain ⟨hi, -, hfirst⟩ := List.find?_range_eq_some.1 h
    refine .inr ⟨i, of_decide_eq_true hi, fun j hj hcomment => ?_, rfl⟩
    have := hfirst j hj
    rw [decide_eq_true hcomment] at this
    cases this

theorem not_isComment_of_stripped {line : List Char} (h : stripped line = line) (i : ℕ) :
    ¬IsComment line i := by
  obtain ⟨-, hnone⟩ | ⟨k, hk, -, hstripped⟩ := stripped_cases line
  · exact hnone i
  · have hlen := congrArg List.length (hstripped.symm.trans h)
    have hlt := hk.1.lt
    rw [List.length_take] at hlen
    omega

theorem isComment_of_stripped {line : List Char} {k : ℕ} (hk : k < line.length)
    (h : stripped line = line.take k) : IsComment line k ∧ ∀ j < k, ¬IsComment line j := by
  obtain ⟨hline, -⟩ | ⟨i, hi, hfirst, hstripped⟩ := stripped_cases line
  · have hlen := congrArg List.length (hline.symm.trans h)
    rw [List.length_take] at hlen
    omega
  · have hlen := congrArg List.length (hstripped.symm.trans h)
    have hlt := hi.1.lt
    rw [List.length_take, List.length_take] at hlen
    obtain rfl : i = k := by omega
    exact ⟨hi, hfirst⟩

theorem stops_iff_isComment {line : List Char} {i : ℕ} (hs : SlashesAt line i)
    (hcrash : crash (before line i) = false) :
    (Stops line i ↔ IsComment line i) ↔ strays (before line i) % 2 = 0 := by
  have hparity := Nat.mod_two_eq_zero_or_one (strays (before line i))
  rw [Stops, IsComment, quoteOpen_eq, hcrash]
  obtain h | h := hparity
  · simp [hs, h]
  · cases hin : inString (before line i) <;> simp [hs, h]

theorem crash_of_not_stops {line : List Char} {i : ℕ} (hs : SlashesAt line i)
    (h : ¬Stops line i) : crash (before line i) = false :=
  Bool.eq_false_iff.2 fun hc => h ⟨hs, .inl hc⟩

/-- Where both readings end or go on, the text before was read alike. -/
theorem read_alike {line : List Char} {i : ℕ} (hs : SlashesAt line i) (hstop : ¬Stops line i)
    (hcomment : ¬IsComment line i) :
    strays (before line i) % 2 = 0 ∧ crash (before line i) = false := by
  have hcrash := crash_of_not_stops hs hstop
  exact ⟨(stops_iff_isComment hs hcrash).1 (iff_of_false hstop hcomment), hcrash⟩

theorem Readable.stops_iff {line : List Char} (h : Readable line) {i : ℕ}
    (hfirst : ∀ j < i, ¬IsComment line j) : Stops line i ↔ IsComment line i := by
  by_cases hs : SlashesAt line i
  · obtain ⟨hstrays, hcrash⟩ := h i hs hfirst
    exact (stops_iff_isComment hs hcrash).2 hstrays
  · exact iff_of_false (fun hi => hs hi.1) fun hi => hs hi.1

theorem rmCmt_of_readable {line : List Char} (h : Readable line) :
    rmCmt line = .ok (stripped line) := by
  obtain ⟨hstripped, hnone⟩ | ⟨i, hi, hfirst, hstripped⟩ := stripped_cases line
  · have hstops : ∀ i, ¬Stops line i := fun i hi =>
      hnone i ((h.stops_iff fun j _ => hnone j).1 hi)
    obtain ⟨hout, -⟩ | ⟨i, hi, -⟩ := rmCmt_cases line
    · rw [hout, hstripped]
    · exact absurd hi (hstops i)
  · have hstop : Stops line i := (h.stops_iff hfirst).2 hi
    have hbefore : ∀ j < i, ¬Stops line j := fun j hj hj' =>
      hfirst j hj ((h.stops_iff fun k hk => hfirst k (hk.trans hj)).1 hj')
    obtain ⟨-, hnone⟩ | ⟨k, hk, hkfirst, hout⟩ := rmCmt_cases line
    · exact absurd hstop (hnone i)
    · obtain hlt | rfl | hlt := Nat.lt_trichotomy k i
      · exact absurd hk (hbefore k hlt)
      · rw [hout, (h k hi.1 hfirst).2, hstripped]
        rfl
      · exact absurd hstop (hkfirst i hlt)

theorem readable_of_rmCmt {line : List Char} (h : rmCmt line = .ok (stripped line)) :
    Readable line := by
  intro i hs hfirst
  obtain ⟨hout, hstops⟩ | ⟨k, hk, hkfirst, hout⟩ := rmCmt_cases line
  · have hline : stripped line = line := Except.ok.inj (h.symm.trans hout)
    exact read_alike hs (hstops i) (not_isComment_of_stripped hline i)
  · rw [hout] at h
    split_ifs at h with hcrash
    obtain ⟨hcomment, hkcomment⟩ := isComment_of_stripped hk.1.lt (Except.ok.inj h).symm
    obtain hlt | rfl | hlt := Nat.lt_trichotomy i k
    · exact read_alike hs (hkfirst i hlt) (hkcomment i hlt)
    · have hcrash' := Bool.eq_false_iff.2 hcrash
      exact ⟨(stops_iff_isComment hs hcrash').1 (iff_of_true hk hcomment), hcrash'⟩
    · exact absurd hcomment (hfirst k hlt)

/-- **The comment is stripped from a line exactly when it is readable.** -/
theorem rmCmt_eq_stripped_iff (line : List Char) :
    rmCmt line = .ok (stripped line) ↔ Readable line :=
  ⟨readable_of_rmCmt, rmCmt_of_readable⟩

/-- A string that begins with an escaped quote. -/
def escapedFirst : List Char :=
  ['"', '\\', '"', '"', ' ', '/', '/', 'x']

theorem escapedFirst_indexError :
    rmCmt escapedFirst = .error .indexError ∧
      stripped escapedFirst = ['"', '\\', '"', '"', ' '] := by
  constructor
  · simp [escapedFirst, rmCmt, rmCmtLoop, quoteLoop, findSlashes, findQuote, isEscapeOpr,
      countBackslashes, Except.bind]
  · decide

end LddExample.Mmu.Comment
