import LddExample.Mmu.Translate

/-!
# The image and the hardware walk

* `walk`: a stage-1 walk with the 4K granule that starts at level 1, on the bytes in memory.
* `Wf`: what every reachable state of the tables satisfies, for well-formed map entries.
* `write2bin_eq`: the image is the table of the words of the items.
* `walk_eq_lookup`: the walk on the loaded image finds what the entry objects say.
* **`walk_write2bin`**: the walk on the image of any list of map entries follows, for every virtual
  address, the last entry that covers it, and faults where there is none.
-/

namespace LddExample.Mmu

open Bytes Loop

/-! ## The walk -/

/-- Bits 47 to `lvl.ln` of a descriptor: the output address of a leaf of level `lvl`. -/
def descAddr (lvl : Level) (d : ℕ) : ℕ := d % 2 ^ 48 / 2 ^ lvl.ln * 2 ^ lvl.ln

/-- Bits 11 to 2 of a descriptor. -/
def descAttr (d : ℕ) : ℕ := d % 2 ^ 12 / 2 ^ 2 * 2 ^ 2

/-- One step of the walk: `d` is the descriptor of level `lvl`, `next` walks the table below. -/
def decode (lvl : Level) (d va : ℕ) (next : ℕ → Option (ℕ × ℕ)) : Option (ℕ × ℕ) :=
  if d % 4 = 1 ∧ lvl ≠ .l3 then some (descAddr lvl d + va % 2 ^ lvl.ln, descAttr d)
  else if d % 4 = 3 ∧ lvl ≠ .l3 then next (descAddr .l3 d)
  else if d % 4 = 3 then some (descAddr .l3 d + va % 2 ^ lvl.ln, descAttr d)
  else none

/-- The descriptor for `va` in the table of level `lvl` at address `base`. -/
def fetchDesc (mem : ℕ → UInt8) (lvl : Level) (base va : ℕ) : ℕ :=
  readLE mem (base + 8 * (va / 2 ^ lvl.ln % 512)) 8

/-- **The stage-1 walk** with the 4K granule from the level 1 table at `ttbr`: the output address
and the attribute bits, or a fault. -/
def walk (mem : ℕ → UInt8) (ttbr va : ℕ) : Option (ℕ × ℕ) :=
  decode .l1 (fetchDesc mem .l1 ttbr va) va fun base =>
  decode .l2 (fetchDesc mem .l2 base va) va fun base =>
  decode .l3 (fetchDesc mem .l3 base va) va fun _ => none

/-! ## Words of the image -/

theorem or_fields {a x m : ℕ} (ha : 4096 ∣ a) (hx : x < 4) (hm : 4 ∣ m) (hm' : m < 4096) :
    a ||| x ||| m = a + (m + x) := by
  rw [Nat.lor_assoc, Nat.lor_comm x m, or_eq_add (i := 2) hm hx]
  exact or_eq_add (i := 12) ha (by omega)

namespace MMUTablel3

/-- The word that the image holds for an entry object of level `lvl`. -/
def word (addr : ℕ) (lvl : Level) (e : MMUTable) : ℕ :=
  e.entryAddr + (if lvl ≠ .l3 ∧ e.attr = ttS1AttrTable then addr else 0) + (e.memAttr + e.attr)

/-- What the well-formed map entries keep: descriptor fields do not overlap, and the level 1 table
stands at the start of the image. -/
structure Wf (t : MMUTablel3) : Prop where
  layout : Layout t
  attr : t.AttrOk
  first : ∀ g < 512, t.items[g]? = some ⟨.l1, g⟩
  type : ∀ r ∈ t.items, (t.table r).type = .l3 ↔ r.lvl = .l3
  mem : ∀ r, 4 ∣ (t.table r).memAttr ∧ (t.table r).memAttr < 4096
  dvd : ∀ r, 4096 ∣ (t.table r).entryAddr
  leaf : ∀ r, (t.table r).attr = r.lvl.leaf →
    2 ^ r.lvl.ln ∣ (t.table r).entryAddr ∧ (t.table r).entryAddr + 2 ^ r.lvl.ln ≤ 2 ^ 48
  lt : ∀ r, (t.table r).entryAddr < 2 ^ 48 ∨ (t.table r).entryAddr < 8 * t.items.length

theorem child_share {lvl : Level} (h : lvl ≠ .l3) {a i : ℕ} (ha : 2 ^ lvl.ln ∣ a)
    (ha' : a + 2 ^ lvl.ln ≤ 2 ^ 48) (hi : i < 512) :
    2 ^ lvl.down.ln ∣ a + i * 2 ^ lvl.down.ln ∧
      a + i * 2 ^ lvl.down.ln + 2 ^ lvl.down.ln ≤ 2 ^ 48 ∧ 4096 ∣ a + i * 2 ^ lvl.down.ln := by
  cases lvl with
  | l3 => exact absurd rfl h
  | l1 | l2 =>
    simp only [Level.down, Level.ln] at *
    omega

theorem leaf_eq_block {lvl : Level} (h : lvl ≠ .l3) : lvl.leaf = ttS1AttrBlock := by
  cases lvl <;> first | rfl | exact absurd rfl h

theorem Wf.child {t : MMUTablel3} (ht : Wf t) {up r : Ref} (hup : up.lvl ≠ .l3)
    (hp : InPage up.lvl.down (512 * up.idx) 512 r) :
    let c := child up.lvl.down t.relAddr (t.table up) (t.table r) (r.idx - 512 * up.idx)
    (4 ∣ c.memAttr ∧ c.memAttr < 4096) ∧ 4096 ∣ c.entryAddr ∧
      (c.attr = r.lvl.leaf → 2 ^ r.lvl.ln ∣ c.entryAddr ∧ c.entryAddr + 2 ^ r.lvl.ln ≤ 2 ^ 48) ∧
      (c.entryAddr < 2 ^ 48 ∨ c.entryAddr < 8 * t.items.length) := by
  have hi : r.idx - 512 * up.idx < 512 := by
    have := hp.2
    omega
  unfold MMUTablel3.child
  by_cases hb : (t.table up).attr = ttS1AttrBlock
  · obtain ⟨h₁, h₂⟩ := ht.leaf up (hb.trans (leaf_eq_block hup).symm)
    obtain ⟨h₃, h₄, h₅⟩ := child_share hup h₁ h₂ hi
    simp only [hb, if_true]
    refine ⟨ht.mem up, h₅, fun _ => ?_, .inl ?_⟩
    · rw [hp.1]
      exact ⟨h₃, h₄⟩
    · have := Nat.two_pow_pos up.lvl.down.ln
      omega
  · simp only [hb, if_false]
    refine ⟨ht.mem r, ht.dvd r, fun h => ?_, ht.lt r⟩
    rw [hp.1] at h
    exact absurd h (by cases up.lvl <;> decide)

theorem Wf.type_split {t : MMUTablel3} (ht : Wf t) {up : Ref} (hup : up.lvl ≠ .l3) :
    ∀ r ∈ (t.split up).items, ((t.split up).table r).type = .l3 ↔ r.lvl = .l3 := by
  intro r hr
  by_cases hp : InPage up.lvl.down (512 * up.idx) 512 r
  · have hne : r ≠ up := by
      rintro rfl
      exact not_inPage_self hup _ _ hp
    rw [table_split_page t hne hp, hp.1]
    rfl
  · have hold : r ∈ t.items := by
      rw [items_split, List.mem_append] at hr
      exact hr.resolve_right fun h => hp (mem_page.mp h)
    rw [← ht.type r hold]
    by_cases hne : r = up
    · rw [hne, table_split_self]
    · rw [table_split_other t hne hp]

theorem Wf.split {t : MMUTablel3} (ht : Wf t) {up : Ref} (hup : up.lvl ≠ .l3) :
    Wf (t.split up) := by
  obtain ⟨q, hq⟩ := ht.layout.page
  have hrel := ht.layout.rel
  have hleaf : ttS1AttrTable ≠ up.lvl.leaf := by
    rw [leaf_eq_block hup]
    decide
  exact {
    layout := ht.layout.split hup
    attr := ht.attr.split
    first := fun g hg => getElem?_append_of_some _ (ht.first g hg)
    type := ht.type_split hup
    mem := forall_split t up (fun _ e => 4 ∣ e.memAttr ∧ e.memAttr < 4096) (ht.mem up)
      (fun r hp => (ht.child hup hp).1) ht.mem
    dvd := forall_split t up (fun _ e => 4096 ∣ e.entryAddr) (by show 4096 ∣ t.relAddr; omega)
      (fun r hp => (ht.child hup hp).2.1) ht.dvd
    leaf := forall_split t up (fun r e => e.attr = r.lvl.leaf → 2 ^ r.lvl.ln ∣ e.entryAddr ∧
        e.entryAddr + 2 ^ r.lvl.ln ≤ 2 ^ 48)
      (fun h => absurd h hleaf) (fun r hp => (ht.child hup hp).2.2.1) ht.leaf
    lt := by
      rw [length_items_split]
      refine forall_split t up
        (fun _ e => e.entryAddr < 2 ^ 48 ∨ e.entryAddr < 8 * (t.items.length + 512))
        (.inr (by show t.relAddr < _; omega)) (fun r hp => ?_) fun r => ?_
      · exact (ht.child hup hp).2.2.2.imp_right fun h => by omega
      · exact (ht.lt r).imp_right fun h => by omega }

theorem Wf.setEntry {t : MMUTablel3} (ht : Wf t) (r : Ref) {phy memAttr : ℕ} (hphy : phy < 2 ^ 48)
    (hm : 4 ∣ memAttr ∧ memAttr < 4096) : Wf (t.setEntry r (alignLx r.lvl phy) memAttr) := by
  have hent : 2 ^ r.lvl.ln ∣ alignLx r.lvl phy ∧ alignLx r.lvl phy + 2 ^ r.lvl.ln ≤ 2 ^ 48 ∧
      4096 ∣ alignLx r.lvl phy ∧ alignLx r.lvl phy < 2 ^ 48 := by
    rw [alignLx_eq]
    cases r.lvl <;> simp only [Level.ln] <;> omega
  exact {
    layout := ht.layout.setEntry _ _ _
    attr := ht.attr.setEntry _ _ _
    first := ht.first
    type := by
      intro r' hr'
      rw [← ht.type r' hr']
      by_cases hne : r' = r
      · rw [hne, table_setEntry_self]
      · rw [table_setEntry_ne t hne]
    mem := forall_setEntry t r _ _ (fun _ e => 4 ∣ e.memAttr ∧ e.memAttr < 4096) hm ht.mem
    dvd := forall_setEntry t r _ _ (fun _ e => 4096 ∣ e.entryAddr) hent.2.2.1 ht.dvd
    leaf := forall_setEntry t r _ _ (fun r e => e.attr = r.lvl.leaf → 2 ^ r.lvl.ln ∣ e.entryAddr ∧
      e.entryAddr + 2 ^ r.lvl.ln ≤ 2 ^ 48) (fun _ => ⟨hent.1, hent.2.1⟩) ht.leaf
    lt := forall_setEntry t r _ _
      (fun _ e => e.entryAddr < 2 ^ 48 ∨ e.entryAddr < 8 * t.items.length)
      (.inl hent.2.2.2) ht.lt }

theorem wf_init : Wf init where
  layout := layout_init
  attr := attrOk_init
  first g hg := by simp [init, entryNum, hg]
  type r hr := by
    simp only [init, List.mem_map, List.mem_range] at hr
    obtain ⟨i, -, rfl⟩ := hr
    simp [init]
  mem r := by simp [init]
  dvd r := by simp [init]
  leaf r h := by
    cases hl : r.lvl <;> rw [hl] at h <;> exact absurd h (by simp [init]; decide)
  lt r := by simp [init]

end MMUTablel3

namespace MapEntry

/-- A map entry as `gen_elxbin` passes it, with an aligned range below `2 ^ 48`. -/
structure Valid (e : MapEntry) : Prop where
  aligned : e.Aligned
  phyEnd_lt : e.phyEnd < 2 ^ 48
  attr : ∃ el1 m, e.attr = genElxbinAttr el1 m

theorem genElxbinAttr_fields (el1 : Bool) (m : MemType) :
    4 ∣ genElxbinAttr el1 m ∧ genElxbinAttr el1 m < 4096 := by
  cases el1 <;> cases m <;> decide

theorem Valid.attr_fields {e : MapEntry} (h : e.Valid) : 4 ∣ e.attr ∧ e.attr < 4096 := by
  obtain ⟨el1, m, he⟩ := h.attr
  rw [he]
  exact genElxbinAttr_fields el1 m

end MapEntry

namespace MMUTablel3

theorem Wf.mmumap {t t' : MMUTablel3} (ht : Wf t) {e : MapEntry} (he : e.Valid)
    (h : t.mmumap e = .ok t') : Wf t' :=
  mmumap_preserves he.aligned.known.size_pos (fun _ _ ht hr _ => ht.split hr)
    (fun _ r _ ht _ hphy => ht.setEntry r (hphy.trans he.phyEnd_lt) he.attr_fields) ht h

/-! ## Writing and reading the image -/

section Write

variable {t : MMUTablel3} {addr : ℕ}

theorem Wf.attr_cases (ht : Wf t) (r : Ref) : (t.table r).attr = ttS1AttrFault ∨
    (t.table r).attr = ttS1AttrBlock ∧ r.lvl ≠ .l3 ∨ (t.table r).attr = ttS1AttrTable := by
  rcases ht.attr r with h | h | h
  · exact .inl h
  · cases hl : r.lvl <;> rw [hl] at h
    · exact .inr (.inl ⟨h, nofun⟩)
    · exact .inr (.inl ⟨h, nofun⟩)
    · exact .inr (.inr h)
  · exact .inr (.inr h)

/-- **`write2bin` finds a descriptor for every item.** -/
theorem Wf.encode_eq (ht : Wf t) (haddr : 4096 ∣ addr) {r : Ref} (hr : r ∈ t.items) :
    encode addr (t.table r) = some (word addr r.lvl (t.table r)) := by
  have htype := ht.type r hr
  obtain ⟨hm, hm'⟩ := ht.mem r
  have hd := ht.dvd r
  have hd' : 4096 ∣ (t.table r).entryAddr + addr := Nat.dvd_add hd haddr
  unfold encode word
  rcases ht.attr_cases r with h | ⟨h, hl⟩ | h
  · simp [h, ttS1AttrFault, ttS1AttrPage, ttS1AttrTable, ttS1AttrBlock,
      or_eq_add (i := 12) hd hm']
  · have h3 : (t.table r).type ≠ .l3 := fun h => hl (htype.mp h)
    simp [h, h3, ttS1AttrTable, ttS1AttrBlock,
      or_fields (x := 1) hd (by omega) hm hm']
  · by_cases hl : r.lvl = .l3
    · simp [h, htype.mpr hl, hl, ttS1AttrPage, ttS1AttrTable,
        or_fields (x := 3) hd (by omega) hm hm']
    · have h3 : (t.table r).type ≠ .l3 := fun h => hl (htype.mp h)
      simp [h, h3, hl, ttS1AttrPage, ttS1AttrTable,
        or_fields (x := 3) hd' (by omega) hm hm', Nat.add_assoc]

theorem Wf.word_lt (ht : Wf t) (hroom : addr + 8 * t.items.length ≤ 2 ^ 48) (r : Ref) :
    word addr r.lvl (t.table r) < 256 ^ 8 := by
  obtain ⟨-, hm⟩ := ht.mem r
  have hattr : (t.table r).attr ≤ 3 := by
    rcases ht.attr_cases r with h | ⟨h, -⟩ | h <;> rw [h] <;> decide
  have he := ht.lt r
  unfold word
  split_ifs <;> omega

theorem foldlM_write2binBody (w : Ref → ℕ) (l : List Ref) (b : List UInt8)
    (hl : ∀ r ∈ l, encode addr (t.table r) = some (w r) ∧ w r < 256 ^ 8) :
    l.foldlM (t.write2binBody addr) b = .ok (b ++ l.flatMap fun r => leBytes 8 (w r)) := by
  induction l generalizing b with
  | nil => simp; rfl
  | cons r l ih =>
    obtain ⟨h₁, h₂⟩ := hl r List.mem_cons_self
    have hb : t.write2binBody addr b r = .ok (b ++ leBytes 8 (w r)) := by
      unfold write2binBody packQ
      rw [h₁]
      simp only
      rw [if_pos (by norm_num at h₂ ⊢; exact h₂)]
      rfl
    rw [List.foldlM_cons, hb]
    refine (ih _ fun r' hr' => hl r' (List.mem_cons_of_mem _ hr')).trans ?_
    rw [List.flatMap_cons, List.append_assoc]

/-- **The image is the table of the words of the items.** -/
theorem Wf.write2bin_eq (ht : Wf t) (haddr : 4096 ∣ addr) {mmusize : ℕ}
    (hsize : 8 * t.items.length ≤ mmusize) (hroom : addr + 8 * t.items.length ≤ 2 ^ 48) :
    t.write2bin addr mmusize =
      .ok (t.items.flatMap fun r => leBytes 8 (word addr r.lvl (t.table r))) := by
  have hf := foldlM_write2binBody (t := t) (fun r => word addr r.lvl (t.table r)) t.items []
    fun r hr => ⟨ht.encode_eq haddr hr, ht.word_lt hroom r⟩
  have hlen : (t.items.flatMap fun r => leBytes 8 (word addr r.lvl (t.table r))).length =
      8 * t.items.length := by
    simp [List.length_flatMap, Nat.mul_comm]
  unfold write2bin
  rw [hf, List.nil_append]
  show (if _ then _ else _) = _
  rw [if_neg (by omega)]

theorem Wf.desc_leaf (ht : Wf t) {r : Ref} (hleaf : (t.table r).attr = r.lvl.leaf) {k : ℕ}
    (hk : k < 4) :
    descAddr r.lvl ((t.table r).entryAddr + ((t.table r).memAttr + k)) = (t.table r).entryAddr ∧
      descAttr ((t.table r).entryAddr + ((t.table r).memAttr + k)) = (t.table r).memAttr := by
  obtain ⟨hm, hm'⟩ := ht.mem r
  have hd := ht.dvd r
  obtain ⟨h₁, h₂⟩ := ht.leaf r hleaf
  constructor
  · unfold descAddr
    cases hl : r.lvl <;> rw [hl] at h₁ h₂ <;> simp only [Level.ln] at * <;> omega
  · unfold descAttr
    omega

/-- **A descriptor of the image decodes to the step of the translation at its entry.** -/
theorem Wf.decode_word (ht : Wf t) (haddr : 4096 ∣ addr)
    (hroom : addr + 8 * t.items.length ≤ 2 ^ 48) (r : Ref) (va : ℕ)
    (next : ℕ → Option (ℕ × ℕ)) :
    decode r.lvl (word addr r.lvl (t.table r)) va next =
      translate r.lvl (t.table r) va (next ((t.table r).entryAddr + addr)) := by
  obtain ⟨hm, hm'⟩ := ht.mem r
  have hd := ht.dvd r
  rcases ht.attr_cases r with h | ⟨h, hl⟩ | h
  · have hw : word addr r.lvl (t.table r) % 4 = 0 := by
      simp only [word, h, ttS1AttrFault, ttS1AttrTable]
      simp
      omega
    have hleaf : ¬ 0 = r.lvl.leaf := by cases r.lvl <;> decide
    simp [decode, translate, hw, h, ttS1AttrFault, ttS1AttrTable, hleaf]
  · have hleaf : (t.table r).attr = r.lvl.leaf := h.trans (leaf_eq_block hl).symm
    obtain ⟨ha, hb⟩ := ht.desc_leaf hleaf (k := 1) (by omega)
    have hw : word addr r.lvl (t.table r) = (t.table r).entryAddr + ((t.table r).memAttr + 1) := by
      simp [word, h, ttS1AttrBlock, ttS1AttrTable]
    rw [decode, hw, if_pos ⟨by omega, hl⟩, translate, if_pos hleaf, ha, hb]
  · by_cases hl : r.lvl = .l3
    · have hleaf : (t.table r).attr = r.lvl.leaf := by rw [h, hl]; rfl
      obtain ⟨ha, hb⟩ := ht.desc_leaf hleaf (k := 3) (by omega)
      rw [hl] at ha hleaf ⊢
      have hw : word addr .l3 (t.table r) = (t.table r).entryAddr + ((t.table r).memAttr + 3) := by
        simp [word, h, ttS1AttrTable]
      rw [decode, hw, if_neg (by simp), if_neg (by simp), if_pos (by omega), translate,
        if_pos hleaf, ha, hb]
    · have hpage := (ht.layout.tab r hl h).le
      have hw : word addr r.lvl (t.table r) =
          (t.table r).entryAddr + addr + ((t.table r).memAttr + 3) := by
        simp [word, h, hl, ttS1AttrTable]
      rw [translate_table hl h, decode, hw, if_neg (by omega), if_pos ⟨by omega, hl⟩]
      congr 1
      unfold descAddr
      simp only [Level.ln]
      omega

/-- **The walk on the loaded image finds what the entry objects say.** -/
theorem Wf.walk_eq_lookup (ht : Wf t) (haddr : 4096 ∣ addr)
    (hroom : addr + 8 * t.items.length ≤ 2 ^ 48) {mem : ℕ → UInt8}
    (hmem : Loaded mem addr (t.items.flatMap fun r => leBytes 8 (word addr r.lvl (t.table r))))
    {va : ℕ} (hva : va < 2 ^ 39) : walk mem addr va = t.lookup va := by
  have hread : ∀ p r, t.items[p]? = some r →
      readLE mem (addr + 8 * p) 8 = word addr r.lvl (t.table r) := fun p r hp =>
    readLE_flatMap hmem hp (ht.word_lt hroom r)
  -- the descriptor of the table that the table entry of level `lvl` points to
  have hnext : ∀ lvl : Level, lvl ≠ .l3 → (t.entry lvl va).attr = ttS1AttrTable →
      fetchDesc mem lvl.down ((t.entry lvl va).entryAddr + addr) va =
        word addr lvl.down (t.entry lvl.down va) := by
    intro lvl hl ha
    have h8 : 4096 ∣ (t.entry lvl va).entryAddr := (ht.layout.tab ⟨lvl, _⟩ hl ha).dvd
    have hg := hread _ _ (ht.layout.item_below hl ha)
    unfold fetchDesc
    rw [show (t.entry lvl va).entryAddr + addr + 8 * (va / 2 ^ lvl.down.ln % 512) =
      addr + 8 * ((t.entry lvl va).entryAddr / 8 + va / 2 ^ lvl.down.ln % 512) by omega, hg]
    rfl
  have h₁ : fetchDesc mem .l1 addr va = word addr .l1 (t.entry .l1 va) := by
    have hg : va / 2 ^ Level.l1.ln < 512 := by
      simp only [Level.ln]
      omega
    unfold fetchDesc
    rw [Nat.mod_eq_of_lt hg]
    exact hread _ _ (ht.first _ hg)
  have hd := fun (r : Ref) next => ht.decode_word haddr hroom r va next
  unfold walk lookup
  rw [h₁]
  refine (hd ⟨.l1, va / 2 ^ Level.l1.ln⟩ _).trans (translate_congr fun ha => ?_)
  have h₂ : fetchDesc mem .l2 ((t.table ⟨.l1, va / 2 ^ Level.l1.ln⟩).entryAddr + addr) va =
    word addr .l2 (t.entry .l2 va) := hnext .l1 (by simp) ha
  rw [h₂]
  refine (hd ⟨.l2, va / 2 ^ Level.l2.ln⟩ _).trans (translate_congr fun ha => ?_)
  have h₃ : fetchDesc mem .l3 ((t.table ⟨.l2, va / 2 ^ Level.l2.ln⟩).entryAddr + addr) va =
    word addr .l3 (t.entry .l3 va) := hnext .l2 (by simp) ha
  rw [h₃]
  exact hd ⟨.l3, va / 2 ^ Level.l3.ln⟩ _

end Write

/-! ## The whole run -/

open Classical in
/-- The translation after a list of map entries: the last one that covers an address decides. -/
theorem lookup_mmumapAll {es : List MapEntry} (hes : ∀ e ∈ es, e.Valid) {t t' : MMUTablel3}
    (ht : Wf t) (h : t.mmumapAll es = .ok t') (va : ℕ) : Wf t' ∧
      (∀ pre e post, es = pre ++ e :: post → e.Covers va → (∀ e' ∈ post, ¬ e'.Covers va) →
        t'.lookup va = some (e.phyBegin + (va - e.virtBegin), e.attr)) ∧
      ((∀ e ∈ es, ¬ e.Covers va) → t'.lookup va = t.lookup va) := by
  induction es generalizing t with
  | nil =>
    cases h
    exact ⟨ht, fun pre e post he => absurd he (by simp), fun _ => rfl⟩
  | cons e es ih =>
    obtain ⟨u, hu, h⟩ := bind_eq_ok h
    have he := hes e List.mem_cons_self
    have hl := ht.attr.lookup_mmumap he.aligned hu va
    obtain ⟨h₁, h₂, h₃⟩ := ih (fun e' he' => hes e' (List.mem_cons_of_mem _ he'))
      (ht.mmumap he hu) h
    refine ⟨h₁, fun pre e' post heq hc hpost => ?_, fun hno => ?_⟩
    · cases pre with
      | nil =>
        obtain ⟨rfl, rfl⟩ := List.cons.inj heq
        rw [h₃ hpost, hl, if_pos hc]
      | cons _ pre =>
        obtain ⟨rfl, rfl⟩ := List.cons.inj heq
        exact h₂ pre e' post rfl hc hpost
    · rw [h₃ fun e' he' => hno e' (List.mem_cons_of_mem _ he'), hl,
        if_neg (hno e List.mem_cons_self)]

end MMUTablel3

open MMUTablel3 in
/-- **The page tables that the script writes translate as its map list says.** The walk follows, for
every 39-bit virtual address, the last map entry one of whose granules holds it, and faults where
there is none. The ELF file reserves `mmusize` bytes, and the image lies in the 48 bits of the
addresses that a walk can follow. -/
theorem walk_write2bin (es : List MapEntry) (hes : ∀ e ∈ es, e.Valid)
    (hidx : init.mmumapAll es ≠ .error .indexError) :
    ∃ t, init.mmumapAll es = .ok t ∧ ∀ addr mmusize, 4096 ∣ addr → 8 * t.items.length ≤ mmusize →
      addr + 8 * t.items.length ≤ 2 ^ 48 → ∃ b, t.write2bin addr mmusize = .ok b ∧
        ∀ mem, Loaded mem addr b → ∀ va < 2 ^ 39,
          (∀ pre e post, es = pre ++ e :: post → e.Covers va → (∀ e' ∈ post, ¬ e'.Covers va) →
            walk mem addr va = some (e.phyBegin + (va - e.virtBegin), e.attr)) ∧
          ((∀ e ∈ es, ¬ e.Covers va) → walk mem addr va = none) := by
  obtain ⟨t, ht⟩ := mmumapAll_eq_ok (fun e he => (hes e he).aligned.known) hidx
  refine ⟨t, ht, fun addr mmusize haddr hsize hroom => ?_⟩
  have hwf := (lookup_mmumapAll hes wf_init ht 0).1
  refine ⟨_, hwf.write2bin_eq haddr hsize hroom, fun mem hmem va hva => ?_⟩
  obtain ⟨-, h₁, h₂⟩ := lookup_mmumapAll hes wf_init ht va
  rw [hwf.walk_eq_lookup haddr hroom hmem hva]
  exact ⟨h₁, h₂⟩

theorem sampleMap_valid : ∀ e ∈ sampleMap, e.Valid := by
  intro e he
  simp only [sampleMap, List.mem_cons, List.not_mem_nil, or_false] at he
  rcases he with rfl | rfl
  · exact ⟨⟨.inl rfl, by decide, by decide⟩, by decide, false, .device, rfl⟩
  · exact ⟨⟨.inr (.inr rfl), by decide, by decide⟩, by decide, false, .cacheable, rfl⟩

open MMUTablel3 in
theorem walk_sampleMap : ∃ t b, init.mmumapAll sampleMap = .ok t ∧
    t.write2bin 0x80000 0x10000 = .ok b ∧ ∀ mem, Loaded mem 0x80000 b →
      walk mem 0x80000 0x3010 = some (0x5010, genElxbinAttr false .cacheable) ∧
      walk mem 0x80000 0x2010 = some (0x2010, genElxbinAttr false .device) ∧
      walk mem 0x80000 (2 ^ 30) = none := by
  obtain ⟨t, ht, hrel⟩ := sampleMap_ok
  have hlen := (lookup_mmumapAll sampleMap_valid wf_init ht 0).1.layout.rel
  obtain ⟨t', ht', h⟩ := walk_write2bin sampleMap sampleMap_valid (by rw [ht]; nofun)
  obtain rfl : t = t' := Except.ok.inj (ht.symm.trans ht')
  obtain ⟨b, hb, hw⟩ := h 0x80000 0x10000 (by decide) (by omega) (by omega)
  refine ⟨t, b, ht, hb, fun mem hmem => ⟨?_, ?_, ?_⟩⟩
  · exact (hw mem hmem 0x3010 (by decide)).1 [_] _ [] rfl ⟨0, by decide, by decide, by decide⟩
      (by simp)
  · refine (hw mem hmem 0x2010 (by decide)).1 [] _ _ rfl ⟨0, by decide, by decide, by decide⟩ ?_
    simp only [List.mem_cons, List.not_mem_nil, or_false, forall_eq]
    rintro ⟨j, h₁, -⟩
    simp only [Gran.size] at h₁
    omega
  · refine (hw mem hmem (2 ^ 30) (by decide)).2 ?_
    simp only [sampleMap, List.mem_cons, List.not_mem_nil, or_false, forall_eq_or_imp, forall_eq]
    constructor <;> rintro ⟨j, h₁, h₂, h₃⟩ <;> simp only [Gran.size] at h₁ h₂ h₃ <;> omega

end LddExample.Mmu
