import LddExample.Mmu.Layout

/-!
# What the tables translate

`lookup t va` follows the entry objects, before any image is written: the physical address and the
memory attributes of `va`, or `none` for a fault.

* `lookup_ensureTable`: splitting an entry does not change the translation of any address.
* `lookup_setEntry`: a leaf entry decides the addresses below it, if the entries above are tables.
* `TablesTo`: these entries above are tables.
* **`lookup_mmumap`**: a map entry redirects the addresses of its granules and no others.
-/

namespace LddExample.Mmu

open Bytes Loop

/-- One step of the translation at an entry of level `lvl`; `below` is the next table's answer. -/
def translate (lvl : Level) (e : MMUTable) (va : ℕ) (below : Option (ℕ × ℕ)) : Option (ℕ × ℕ) :=
  if e.attr = lvl.leaf then some (e.entryAddr + va % 2 ^ lvl.ln, e.memAttr)
  else if e.attr = ttS1AttrTable then below else none

theorem translate_congr {lvl : Level} {e : MMUTable} {va : ℕ} {x y : Option (ℕ × ℕ)}
    (h : e.attr = ttS1AttrTable → x = y) : translate lvl e va x = translate lvl e va y := by
  by_cases he : e.attr = ttS1AttrTable
  · rw [h he]
  · unfold translate
    rw [if_neg he, if_neg he]

namespace MMUTablel3

variable (t : MMUTablel3)

/-- The entry of level `lvl` for `va`. -/
def entry (lvl : Level) (va : ℕ) : MMUTable := t.table ⟨lvl, va / 2 ^ lvl.ln⟩

/-- **The translation of `va`**: its address and its memory attributes. -/
def lookup (va : ℕ) : Option (ℕ × ℕ) :=
  translate .l1 (t.entry .l1 va) va
    (translate .l2 (t.entry .l2 va) va (translate .l3 (t.entry .l3 va) va none))

/-- The entries above entry `idx` of level `lvl` are tables. -/
def TablesTo : Level → ℕ → Prop
  | .l1, _ => True
  | .l2, m => (t.table ⟨.l1, m / 512⟩).attr = ttS1AttrTable
  | .l3, k => (t.table ⟨.l1, k / 512 / 512⟩).attr = ttS1AttrTable ∧
      (t.table ⟨.l2, k / 512⟩).attr = ttS1AttrTable

variable {t}

/-! ## Splitting -/

theorem mod_two_pow_ln {lvl : Level} (h : lvl ≠ .l3) (va : ℕ) : va % 2 ^ lvl.ln =
    (va / 2 ^ lvl.down.ln - 512 * (va / 2 ^ lvl.ln)) * 2 ^ lvl.down.ln + va % 2 ^ lvl.down.ln := by
  cases lvl with
  | l3 => exact absurd rfl h
  | l1 | l2 => simp only [Level.down, Level.ln]; omega

theorem div_two_pow_down {lvl : Level} (h : lvl ≠ .l3) (va : ℕ) :
    va / 2 ^ lvl.down.ln / 512 = va / 2 ^ lvl.ln := by
  cases lvl with
  | l3 => exact absurd rfl h
  | l1 | l2 => simp only [Level.down, Level.ln]; omega

/-- The item that a table entry points to for `va` is the entry of the next level for `va`. -/
theorem Layout.item_below (ht : Layout t) {lvl : Level} (hl : lvl ≠ .l3) {va : ℕ}
    (ha : (t.entry lvl va).attr = ttS1AttrTable) :
    t.items[(t.entry lvl va).entryAddr / 8 + va / 2 ^ lvl.down.ln % 512]? =
      some ⟨lvl.down, va / 2 ^ lvl.down.ln⟩ := by
  have hlt : va / 2 ^ lvl.down.ln % 512 < 512 := Nat.mod_lt _ (by omega)
  have hdiv := div_two_pow_down hl va
  have hidx : 512 * (va / 2 ^ lvl.ln) + va / 2 ^ lvl.down.ln % 512 = va / 2 ^ lvl.down.ln := by
    omega
  have hget := (ht.tab ⟨lvl, va / 2 ^ lvl.ln⟩ hl ha).get _ hlt
  dsimp only at hget
  rw [hidx] at hget
  exact hget

/-- The entries of the new table translate as the entry it replaces. -/
theorem translate_child {lvl : Level} (h : lvl ≠ .l3) {e : MMUTable}
    (he : e.attr = ttS1AttrFault ∨ e.attr = ttS1AttrBlock) (c : MMUTable) (rel va : ℕ)
    (below below' : Option (ℕ × ℕ)) :
    translate lvl.down (child lvl.down rel e c (va / 2 ^ lvl.down.ln - 512 * (va / 2 ^ lvl.ln))) va
      below = translate lvl e va below' := by
  have hleaf : lvl.leaf = ttS1AttrBlock := by
    cases lvl <;> first | rfl | exact absurd rfl h
  rcases he with he | he
  · have hdown : ¬ 0 = lvl.down.leaf := by cases lvl <;> decide
    simp [translate, child, he, hleaf, hdown, ttS1AttrFault, ttS1AttrTable, ttS1AttrBlock]
  · simp only [translate, child, he, if_true, hleaf, mod_two_pow_ln h va, Nat.add_assoc]

theorem inPage_iff {lvl : Level} (h : lvl ≠ .l3) (idx va : ℕ) (lvl' : Level) :
    InPage lvl.down (512 * idx) 512 ⟨lvl', va / 2 ^ lvl'.ln⟩ ↔
      lvl' = lvl.down ∧ va / 2 ^ lvl.ln = idx := by
  unfold InPage
  constructor
  · rintro ⟨h₁, h₂, h₃⟩
    dsimp only at h₁ h₂ h₃
    subst h₁
    have := div_two_pow_down h va
    exact ⟨rfl, by omega⟩
  · rintro ⟨h₁, h₂⟩
    subst h₁
    have := div_two_pow_down h va
    refine ⟨rfl, ?_, ?_⟩ <;> dsimp only <;> omega

theorem entry_split {up : Ref} (hup : up.lvl ≠ .l3) (lvl : Level) (va : ℕ) :
    (t.split up).entry lvl va =
      if lvl = up.lvl ∧ va / 2 ^ lvl.ln = up.idx then { t.table up with
        entryAddr := t.relAddr, entryIdx := 512 * up.idx, attr := ttS1AttrTable }
      else if lvl = up.lvl.down ∧ va / 2 ^ up.lvl.ln = up.idx then
        child up.lvl.down t.relAddr (t.table up) (t.entry lvl va) (va / 2 ^ lvl.ln - 512 * up.idx)
      else t.entry lvl va := by
  unfold entry
  by_cases h₁ : lvl = up.lvl ∧ va / 2 ^ lvl.ln = up.idx
  · have : (⟨lvl, va / 2 ^ lvl.ln⟩ : Ref) = up := by
      obtain ⟨rfl, h⟩ := h₁
      rw [h]
    rw [if_pos h₁, this, table_split_self]
  · have hne : (⟨lvl, va / 2 ^ lvl.ln⟩ : Ref) ≠ up := by
      rintro rfl
      exact h₁ ⟨rfl, rfl⟩
    rw [if_neg h₁]
    by_cases h₂ : lvl = up.lvl.down ∧ va / 2 ^ up.lvl.ln = up.idx
    · rw [if_pos h₂, table_split_page t hne ((inPage_iff hup _ va lvl).mpr h₂)]
    · rw [if_neg h₂, table_split_other t hne fun h => h₂ ((inPage_iff hup _ va lvl).mp h)]

theorem translate_table {lvl : Level} (h : lvl ≠ .l3) {e : MMUTable}
    (he : e.attr = ttS1AttrTable) (va : ℕ) (below : Option (ℕ × ℕ)) :
    translate lvl e va below = below := by
  have hleaf : e.attr ≠ lvl.leaf := by
    rw [he]
    cases lvl <;> first | exact absurd rfl h | decide
  rw [translate, if_neg hleaf, if_pos he]

/-- **Splitting an entry does not change any translation.** -/
theorem lookup_split {up : Ref} (hup : up.lvl ≠ .l3)
    (ha : (t.table up).attr = ttS1AttrFault ∨ (t.table up).attr = ttS1AttrBlock) (va : ℕ) :
    (t.split up).lookup va = t.lookup va := by
  have hent := fun lvl => entry_split (t := t) hup lvl va
  obtain ⟨lvl, idx⟩ := up
  unfold lookup
  by_cases hva : va / 2 ^ lvl.ln = idx
  · -- `va` is below the entry: its old translation is given by the new table
    subst hva
    cases lvl with
    | l3 => exact absurd rfl hup
    | l1 =>
      have h₁ := (hent .l1).trans (if_pos ⟨rfl, rfl⟩)
      have h₂ := (hent .l2).trans ((if_neg (by simp)).trans (if_pos ⟨rfl, rfl⟩))
      rw [h₁, translate_table hup rfl, h₂]
      exact translate_child hup ha _ _ va _ _
    | l2 =>
      have h₁ := (hent .l1).trans ((if_neg (by simp)).trans (if_neg (by simp [Level.down])))
      have h₂ := (hent .l2).trans (if_pos ⟨rfl, rfl⟩)
      have h₃ := (hent .l3).trans ((if_neg (by simp)).trans (if_pos ⟨rfl, rfl⟩))
      rw [h₁, h₂, translate_table hup rfl, h₃]
      congr 1
      exact translate_child hup ha _ _ va _ _
  · have hsame : ∀ lvl', (t.split ⟨lvl, idx⟩).entry lvl' va = t.entry lvl' va := fun lvl' => by
      rw [hent, if_neg (by rintro ⟨rfl, h⟩; exact hva h), if_neg fun h => hva h.2]
    simp only [hsame]

theorem lookup_ensureTable {up : Ref} (hup : up.lvl ≠ .l3) (va : ℕ) :
    (t.ensureTable up).lookup va = t.lookup va := by
  unfold ensureTable
  split_ifs with ha
  · exact lookup_split hup ha va
  · rfl

/-! ## Tables above an entry -/

/-- Every entry is a fault, a leaf or a table. -/
def AttrOk (t : MMUTablel3) : Prop := ∀ r : Ref, (t.table r).attr = ttS1AttrFault ∨
  (t.table r).attr = r.lvl.leaf ∨ (t.table r).attr = ttS1AttrTable

theorem attr_child {lvl : Level} {rel i : ℕ} {e c : MMUTable} :
    (child lvl rel e c i).attr = ttS1AttrFault ∨ (child lvl rel e c i).attr = lvl.leaf := by
  unfold child
  split_ifs
  · exact .inr rfl
  · exact .inl rfl

theorem AttrOk.split (ht : t.AttrOk) {up : Ref} : (t.split up).AttrOk :=
  forall_split t up
    (fun r e => e.attr = ttS1AttrFault ∨ e.attr = r.lvl.leaf ∨ e.attr = ttS1AttrTable)
    (.inr (.inr rfl)) (fun r hp => by rw [hp.1]; exact attr_child.imp_right .inl) ht

theorem AttrOk.setEntry (ht : t.AttrOk) (r : Ref) (entry memAttr : ℕ) :
    (t.setEntry r entry memAttr).AttrOk :=
  forall_setEntry t r entry memAttr
    (fun r e => e.attr = ttS1AttrFault ∨ e.attr = r.lvl.leaf ∨ e.attr = ttS1AttrTable)
    (.inr (.inl rfl)) ht

theorem attrOk_init : init.AttrOk := fun _ => .inl rfl

theorem AttrOk.mmumap (ht : t.AttrOk) {e : MapEntry} (hg : 0 < e.gran.size) {t' : MMUTablel3}
    (h : t.mmumap e = .ok t') : t'.AttrOk :=
  mmumap_preserves hg (fun _ _ ht _ _ => ht.split) (fun _ _ _ ht _ _ => ht.setEntry _ _ _) ht h

theorem AttrOk.attr_ensureTable (ht : t.AttrOk) {up : Ref} (hup : up.lvl ≠ .l3) :
    ((t.ensureTable up).table up).attr = ttS1AttrTable := by
  unfold ensureTable
  split_ifs with ha
  · rw [table_split_self]
  · have hleaf : up.lvl.leaf = ttS1AttrBlock := by
      cases hl : up.lvl <;> first | rfl | exact absurd hl hup
    rcases ht up with h | h | h
    · exact absurd (.inl h) ha
    · exact absurd (.inr (h.trans hleaf)) ha
    · exact h

theorem AttrOk.ensureTable (ht : t.AttrOk) {up : Ref} : (t.ensureTable up).AttrOk := by
  unfold MMUTablel3.ensureTable
  split_ifs
  · exact ht.split
  · exact ht

theorem attr_ensureTable_of_table {up r : Ref} (hup : up.lvl ≠ .l3)
    (hr : (t.table r).attr = ttS1AttrTable)
    (habove : r.lvl = .l2 → (t.table ⟨.l1, r.idx / 512⟩).attr = ttS1AttrTable) (hl : r.lvl ≠ .l3) :
    ((t.ensureTable up).table r).attr = ttS1AttrTable := by
  have hnt : ∀ r', (t.table r').attr = ttS1AttrTable → ((t.table up).attr = ttS1AttrFault ∨
      (t.table up).attr = ttS1AttrBlock) → r' ≠ up := by
    rintro r' h₁ h₂ rfl
    rw [h₁] at h₂
    exact absurd h₂ (by decide)
  unfold ensureTable
  split_ifs with ha
  · rw [table_split_other t (hnt r hr ha), hr]
    rintro ⟨h₁, h₂, h₃⟩
    -- `r` is in the new page only if `up` is the table entry above it
    obtain ⟨lvl, idx⟩ := up
    cases lvl with
    | l3 => exact hup rfl
    | l2 => exact hl h₁
    | l1 =>
      refine hnt _ (habove h₁) ha ?_
      dsimp only at h₂ h₃
      rw [show r.idx / 512 = idx by omega]
  · exact hr

theorem TablesTo.ensureTable {lvl : Level} {idx : ℕ} (h : t.TablesTo lvl idx) {up : Ref}
    (hup : up.lvl ≠ .l3) : (t.ensureTable up).TablesTo lvl idx := by
  cases lvl with
  | l1 => trivial
  | l2 => exact attr_ensureTable_of_table hup h (by simp) (by simp)
  | l3 =>
    exact ⟨attr_ensureTable_of_table hup h.1 (by simp) (by simp),
      attr_ensureTable_of_table hup h.2 (fun _ => h.1) (by simp)⟩

theorem TablesTo.setEntry {r : Ref} {idx : ℕ} (h : t.TablesTo r.lvl idx) (entry memAttr : ℕ) :
    (t.setEntry r entry memAttr).TablesTo r.lvl idx := by
  obtain ⟨lvl, i⟩ := r
  cases lvl with
  | l1 => trivial
  | l2 => exact (congrArg MMUTable.attr (table_setEntry_ne t (by simp) entry memAttr)).trans h
  | l3 =>
    exact ⟨(congrArg MMUTable.attr (table_setEntry_ne t (by simp) entry memAttr)).trans h.1,
      (congrArg MMUTable.attr (table_setEntry_ne t (by simp) entry memAttr)).trans h.2⟩

/-- **A leaf entry decides the addresses below it.** -/
theorem lookup_setEntry {r : Ref} (h : t.TablesTo r.lvl r.idx) (entry memAttr va : ℕ) :
    (t.setEntry r entry memAttr).lookup va =
      if va / 2 ^ r.lvl.ln = r.idx then some (entry + va % 2 ^ r.lvl.ln, memAttr)
      else t.lookup va := by
  obtain ⟨lvl, idx⟩ := r
  have hother : ∀ lvl', ¬ (lvl' = lvl ∧ va / 2 ^ lvl.ln = idx) →
      (t.setEntry ⟨lvl, idx⟩ entry memAttr).entry lvl' va = t.entry lvl' va := fun lvl' h => by
    refine table_setEntry_ne t (fun heq => h ?_) _ _
    cases heq
    exact ⟨rfl, rfl⟩
  split_ifs with hva
  · have hself := table_setEntry_self t ⟨lvl, idx⟩ entry memAttr
    dsimp only at hva h
    have hent : (t.setEntry ⟨lvl, idx⟩ entry memAttr).entry lvl va =
        (t.setEntry ⟨lvl, idx⟩ entry memAttr).table ⟨lvl, idx⟩ := by rw [MMUTablel3.entry, hva]
    have hleaf : ∀ below,
        translate lvl ((t.setEntry ⟨lvl, idx⟩ entry memAttr).entry lvl va) va below =
          some (entry + va % 2 ^ lvl.ln, memAttr) := fun below => by
      rw [hent, hself, translate, if_pos rfl]
    have hdown₁ : va / 2 ^ Level.l2.ln / 512 = va / 2 ^ Level.l1.ln :=
      div_two_pow_down (show Level.l1 ≠ .l3 by simp) va
    have hdown₂ : va / 2 ^ Level.l3.ln / 512 = va / 2 ^ Level.l2.ln :=
      div_two_pow_down (show Level.l2 ≠ .l3 by simp) va
    unfold lookup
    cases lvl with
    | l1 => exact hleaf _
    | l2 =>
      have h₁ : (t.entry .l1 va).attr = ttS1AttrTable := by
        rw [← h, ← hva, hdown₁]
        rfl
      rw [hother .l1 (by simp), translate_table (by simp) h₁]
      exact hleaf _
    | l3 =>
      have h₁ : (t.entry .l1 va).attr = ttS1AttrTable := by
        rw [← h.1, ← hva, hdown₂, hdown₁]
        rfl
      have h₂ : (t.entry .l2 va).attr = ttS1AttrTable := by
        rw [← h.2, ← hva, hdown₂]
        rfl
      rw [hother .l1 (by simp), translate_table (by simp) h₁, hother .l2 (by simp),
        translate_table (by simp) h₂]
      exact hleaf _
  · unfold lookup
    simp only [hother _ fun h => hva h.2]

/-! ## The loops -/

theorem lookup_realloctbStep (t : MMUTablel3) (pos : ℕ) (gran : Gran) (va : ℕ) :
    (t.realloctbStep pos gran).lookup va = t.lookup va := by
  cases gran with
  | g1G | other name => rfl
  | g2M => exact lookup_ensureTable (by simp) va
  | g4K => exact (lookup_ensureTable (by simp) va).trans (lookup_ensureTable (by simp) va)

theorem AttrOk.realloctbStep (ht : t.AttrOk) (pos : ℕ) (gran : Gran) :
    (t.realloctbStep pos gran).AttrOk := by
  cases gran with
  | g1G | other name => exact ht
  | g2M => exact ht.ensureTable
  | g4K => exact ht.ensureTable.ensureTable

theorem TablesTo.realloctbStep {lvl : Level} {idx : ℕ} (h : t.TablesTo lvl idx) (pos : ℕ)
    (gran : Gran) : (t.realloctbStep pos gran).TablesTo lvl idx := by
  cases gran with
  | g1G | other name => exact h
  | g2M => exact h.ensureTable (by simp)
  | g4K => exact (h.ensureTable (by simp)).ensureTable (by simp)

theorem AttrOk.tablesTo_realloctbStep (ht : t.AttrOk) {gran : Gran} (hg : 0 < gran.size) {pos : ℕ}
    (hpos : gran ≠ .g1G → realloctbStride gran ∣ pos) {va : ℕ} (h₁ : pos ≤ va)
    (h₂ : va < pos + realloctbStride gran) :
    (t.realloctbStep pos gran).TablesTo gran.level (va / gran.size) := by
  cases gran with
  | other name => exact absurd hg (lt_irrefl 0)
  | g1G => trivial
  | g2M =>
    have hd := hpos (by simp)
    simp only [realloctbStride] at hd h₂
    have hva : va / 2 ^ 21 / 512 = pos / 2 ^ 30 := by omega
    show ((t.ensureTable _).table ⟨.l1, va / 2 ^ 21 / 512⟩).attr = _
    rw [hva]
    exact ht.attr_ensureTable (by simp)
  | g4K =>
    have hd := hpos (by simp)
    simp only [realloctbStride] at hd h₂
    have hva : va / 2 ^ 12 / 512 = pos / 2 ^ 21 := by omega
    have hva' : va / 2 ^ 12 / 512 / 512 = pos / 2 ^ 30 := by omega
    have hl1 : ((t.ensureTable ⟨.l1, pos / 2 ^ 30⟩).table ⟨.l1, pos / 2 ^ 30⟩).attr =
        ttS1AttrTable := ht.attr_ensureTable (by simp)
    refine ⟨?_, ?_⟩
    · show (((t.ensureTable _).ensureTable _).table ⟨.l1, va / 2 ^ 12 / 512 / 512⟩).attr = _
      rw [hva']
      exact attr_ensureTable_of_table (by simp) hl1 (by simp) (by simp)
    · show (((t.ensureTable _).ensureTable _).table ⟨.l2, va / 2 ^ 12 / 512⟩).attr = _
      rw [hva]
      exact ht.ensureTable.attr_ensureTable (by simp)

theorem realloctbStart_le (start : ℕ) (gran : Gran) : realloctbStart start gran ≤ start := by
  cases gran with
  | g1G | other name => exact le_rfl
  | g2M | g4K => exact Nat.sub_le _ _

/-- **`realloctb` keeps every translation** and makes tables of the entries above the range that its
loop steps over. -/
theorem AttrOk.realloctb (ht : t.AttrOk) {gran : Gran} (hg : 0 < gran.size) {start stop : ℕ}
    {t' : MMUTablel3} (h : t.realloctb start stop gran = .ok t') :
    t'.AttrOk ∧ (∀ va, t'.lookup va = t.lookup va) ∧
      ∀ va, realloctbStart start gran ≤ va → va < stop →
        t'.TablesTo gran.level (va / gran.size) := by
  obtain ⟨pos, ⟨h₁, h₂, h₃⟩, hstop⟩ := realloctb_induction hg
    (I := fun u pos => u.AttrOk ∧ (∀ va, u.lookup va = t.lookup va) ∧
      ∀ va, realloctbStart start gran ≤ va → va < pos → u.TablesTo gran.level (va / gran.size))
    (fun u pos ⟨h₁, h₂, h₃⟩ hd _ => ⟨h₁.realloctbStep pos gran,
      fun va => (lookup_realloctbStep u pos gran va).trans (h₂ va), fun va hle hlt => by
        rcases lt_or_ge va pos with hva | hva
        · exact (h₃ va hle hva).realloctbStep pos gran
        · exact h₁.tablesTo_realloctbStep hg hd hva hlt⟩)
    ⟨ht, fun _ => rfl, fun va h₁ h₂ => absurd h₂ (not_lt.mpr h₁)⟩ h
  exact ⟨h₁, h₂, fun va hle hlt => h₃ va hle (hlt.trans_le hstop)⟩

end MMUTablel3

/-! ## A whole map entry -/

namespace MapEntry

/-- Granule `j` of the entry holds `va`, and `mmumap` maps it. -/
def CoversAt (e : MapEntry) (va j : ℕ) : Prop :=
  e.virtBegin + j * e.gran.size ≤ va ∧ va < e.virtBegin + (j + 1) * e.gran.size ∧
    j * e.gran.size < e.phyEnd - e.phyBegin

/-- One of the granules of the entry holds `va`. -/
def Covers (e : MapEntry) (va : ℕ) : Prop := ∃ j, e.CoversAt va j

/-- Both starts are multiples of the granule. -/
structure Aligned (e : MapEntry) : Prop where
  known : e.gran.Known
  phy : e.gran.size ∣ e.phyBegin
  virt : e.gran.size ∣ e.virtBegin

/-- The granules that `n` turns of the loop of `mmumap` map, when the loop then ends. -/
theorem covers_iff {e : MapEntry} (hg : 0 < e.gran.size) {n : ℕ}
    (hin : ∀ j < n, e.virtBegin + j * e.gran.size < e.stop)
    (hout : e.stop ≤ e.virtBegin + n * e.gran.size) (va : ℕ) :
    e.Covers va ↔ e.virtBegin ≤ va ∧ va < e.virtBegin + n * e.gran.size := by
  unfold stop at hin hout
  constructor
  · rintro ⟨j, h₁, h₂, h₃⟩
    have hj : j < n := by
      by_contra hc
      have := Nat.mul_le_mul_right e.gran.size (not_lt.mp hc)
      omega
    have := Nat.mul_le_mul_right e.gran.size (Nat.succ_le_of_lt hj)
    rw [Nat.succ_eq_add_one] at this
    omega
  · rintro ⟨h₁, h₂⟩
    have hdm := Nat.div_add_mod (va - e.virtBegin) e.gran.size
    have hlt := Nat.mod_lt (va - e.virtBegin) hg
    have hj : (va - e.virtBegin) / e.gran.size < n :=
      Nat.div_lt_of_lt_mul (by rw [Nat.mul_comm]; omega)
    have := hin _ hj
    rw [Nat.mul_comm] at hdm
    refine ⟨(va - e.virtBegin) / e.gran.size, ?_, ?_, ?_⟩
    · omega
    · rw [Nat.add_mul]
      omega
    · omega

end MapEntry

namespace MMUTablel3

variable {t : MMUTablel3}

theorem granule_iff {G : ℕ} (hG : 0 < G) (v n va : ℕ) :
    va / G = (G * v + n * G) / G ↔ G * v + n * G ≤ va ∧ va < G * v + (n + 1) * G := by
  have h₁ : (G * v + n * G) / G = v + n := by
    rw [Nat.mul_comm n, ← Nat.mul_add, Nat.mul_div_cancel_left _ hG]
  have h₂ : G * v + n * G = (v + n) * G := by ring
  have h₃ : G * v + (n + 1) * G = (v + n) * G + G := by ring
  rw [h₁, h₂, h₃, Nat.div_eq_iff hG]
  omega

theorem extend_granule {α : Type*} {G : ℕ} (hG : 0 < G) (p v n va : ℕ) (f : ℕ → α) (x : α) :
    (if va / G = (G * v + n * G) / G then f ((G * p + n * G) / G * G + va % G)
      else if G * v ≤ va ∧ va < G * v + n * G then f (G * p + (va - G * v)) else x) =
    if G * v ≤ va ∧ va < G * v + (n + 1) * G then f (G * p + (va - G * v)) else x := by
  have hp : (G * p + n * G) / G * G = G * p + n * G := Nat.div_mul_cancel
    (Nat.dvd_add (Nat.dvd_mul_right G p) (Nat.dvd_mul_left G n))
  rw [hp]
  by_cases h : va / G = (G * v + n * G) / G
  · obtain ⟨h₁, h₂⟩ := (granule_iff hG v n va).mp h
    have hmod : va % G = va - (G * v + n * G) := by
      have hdvd : G ∣ G * v + n * G := Nat.dvd_add (Nat.dvd_mul_right G v) (Nat.dvd_mul_left G n)
      have := Nat.div_add_mod va G
      rw [h, Nat.mul_div_cancel' hdvd] at this
      omega
    rw [if_pos h, if_pos ⟨by omega, h₂⟩, hmod]
    congr 1
    omega
  · rw [if_neg h]
    have hn : ¬ (G * v + n * G ≤ va ∧ va < G * v + (n + 1) * G) :=
      fun hc => h ((granule_iff hG v n va).mpr hc)
    have hsucc : (n + 1) * G = n * G + G := by ring
    refine if_congr ⟨fun hc => ⟨hc.1, by omega⟩, fun hc => ⟨hc.1, by omega⟩⟩ rfl rfl

/-- **The granules that a map entry redirects**, counted from the one that holds `virt_begin`. -/
theorem AttrOk.lookup_mmumap_granules (ht : t.AttrOk) {e : MapEntry} (hg : 0 < e.gran.size)
    {t' : MMUTablel3} (h : t.mmumap e = .ok t') :
    ∃ n, (∀ j < n, e.virtBegin + j * e.gran.size < e.stop) ∧
      e.stop ≤ e.virtBegin + n * e.gran.size ∧
      ∀ va, t'.lookup va =
        if e.gran.size * (e.virtBegin / e.gran.size) ≤ va ∧
            va < e.gran.size * (e.virtBegin / e.gran.size) + n * e.gran.size then
          some (e.gran.size * (e.phyBegin / e.gran.size) +
            (va - e.gran.size * (e.virtBegin / e.gran.size)), e.attr)
        else t.lookup va := by
  obtain ⟨u, hu, h⟩ := bind_eq_ok h
  obtain ⟨s, hs, h⟩ := bind_eq_ok h
  cases h
  obtain ⟨-, hlook, htab⟩ := ht.realloctb hg hu
  have hround : ∀ a n : ℕ, (a + n * e.gran.size) / e.gran.size =
      (e.gran.size * (a / e.gran.size) + n * e.gran.size) / e.gran.size := fun a n => by
    rw [Nat.add_mul_div_right _ _ hg, Nat.add_mul_div_right _ _ hg, Nat.mul_div_cancel_left _ hg]
  obtain ⟨n, ⟨h₁, -, h₃⟩, hstop⟩ := mmumap_induction hg
    (I := fun w n => (∀ va, w.lookup va =
        if e.gran.size * (e.virtBegin / e.gran.size) ≤ va ∧
            va < e.gran.size * (e.virtBegin / e.gran.size) + n * e.gran.size then
          some (e.gran.size * (e.phyBegin / e.gran.size) +
            (va - e.gran.size * (e.virtBegin / e.gran.size)), e.attr) else t.lookup va) ∧
      (∀ va, e.virtBegin ≤ va → va < e.stop → w.TablesTo e.gran.level (va / e.gran.size)) ∧
      ∀ j < n, e.virtBegin + j * e.gran.size < e.stop)
    (fun w n ⟨h₁, h₂, h₃⟩ hlt => ⟨fun va => by
      have hT := h₂ _ (Nat.le_add_right _ _) hlt
      rw [lookup_setEntry (r := ⟨e.gran.level, _⟩) hT, alignLx_eq, ← Gran.size_eq hg, h₁ va,
        hround e.virtBegin, hround e.phyBegin]
      exact extend_granule hg _ _ n va (fun pa => some (pa, e.attr)) _,
      fun va hle hlt => (h₂ va hle hlt).setEntry (r := ⟨e.gran.level, _⟩) _ _,
      fun j hj => by
        rcases Nat.lt_succ_iff_lt_or_eq.mp hj with hj | rfl
        · exact h₃ j hj
        · exact hlt⟩)
    ⟨fun va => by rw [hlook va, if_neg (by omega)],
      fun va hle => htab va ((realloctbStart_le _ _).trans hle),
      fun j hj => absurd hj (Nat.not_lt_zero j)⟩
    hs rfl
  exact ⟨n, h₃, hstop, h₁⟩

open Classical in
/-- **A map entry redirects the addresses of its granules and no others.** -/
theorem AttrOk.lookup_mmumap (ht : t.AttrOk) {e : MapEntry} (he : e.Aligned) {t' : MMUTablel3}
    (h : t.mmumap e = .ok t') (va : ℕ) : t'.lookup va =
      if e.Covers va then some (e.phyBegin + (va - e.virtBegin), e.attr) else t.lookup va := by
  have hg := he.known.size_pos
  obtain ⟨n, hin, hout, hlook⟩ := ht.lookup_mmumap_granules hg h
  rw [hlook va, Nat.mul_div_cancel' he.virt, Nat.mul_div_cancel' he.phy]
  exact if_congr (MapEntry.covers_iff hg hin hout va).symm rfl rfl

end MMUTablel3
end LddExample.Mmu
