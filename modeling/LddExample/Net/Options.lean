import LddExample.Net.Mirror

/-!
# Parsing the options of the mirror module

The loop of `option_setup` finds the fields of the text before the first `@`, split at `/` and `,`.

* `portsText`, `mirrorName`, `fields`: the option text taken apart.
* `good`: a field that names an interface and is not the mirror port.
* `PortsSet`: the module after the good fields of a list.
* `Ends`: the ways out of the loop, by the first field that is not good.
* **`optionSetup_ends`**: `option_setup` takes one of them.
* `Overruns`: there are more than `MAX_PORTS` good fields before the first other one.
* **`parses_iff_not_overruns`**: the options are parsed as they should be exactly when this is not
  so.
-/

namespace LddExample.Net

open CString

/-- The text before the first `@`. -/
def portsText (opt : List UInt8) : List UInt8 :=
  opt.takeWhile (· ≠ atSign)

/-- The text behind it. -/
def mirrorName (opt : List UInt8) : List UInt8 :=
  (opt.dropWhile (· ≠ atSign)).drop 1

/-- The byte ends a name. -/
def isCut (c : UInt8) : Bool :=
  c = slash ∨ c = comma

/-- The names of the data ports. -/
def fields (opt : List UInt8) : List (List UInt8) :=
  (portsText opt).splitOnP isCut

section Ends

variable (devGetByName : List UInt8 → Option NetDevice) (mirror : List UInt8)

/-- The field names an interface other than the mirror port. -/
def good (field : List UInt8) : Bool :=
  field ≠ mirror ∧ (devGetByName field).isSome

/-- The module after the fields of `taken`, all of which are good. -/
structure PortsSet (taken : List (List UInt8)) (s : Mirror) : Prop where
  good : ∀ f ∈ taken, good devGetByName mirror f = true
  le : taken.length ≤ maxPorts
  lookups : s.lookups = taken
  gets : s.gets = taken.filterMap devGetByName
  puts : s.puts = []
  portsDev : ∀ i, s.portsDev i = s.gets[i]?
  bits : ∀ i < 32, s.ifindexBits.getLsbD i = true ↔ ∃ d ∈ s.gets, d.ifindex % 32 = i

/-- What the loop does at the field `f` behind the fields of `taken`, with `cur` at its end. -/
inductive PortEnds (taken : List (List UInt8)) (f mem : List UInt8) (cur : ℕ) : Pass → Prop
  | busy {s} (hf : f = mirror) (h : PortsSet devGetByName mirror taken s) :
    PortEnds taken f mem cur (.stop (.ret s.freePorts (-ebusy)))
  | noPort {s} (hf : f ≠ mirror) (hget : devGetByName f = none)
    (h : PortsSet devGetByName mirror taken s) :
    PortEnds taken f mem cur
      (.stop (.ret (Mirror.freePorts { s with lookups := s.lookups ++ [f] }) (-enodev)))
  | overrun {s} (hgood : good devGetByName mirror f = true) (hlen : taken.length = maxPorts) :
    PortEnds taken f mem cur (.stop (.overrun s))
  | next {s} (h : PortsSet devGetByName mirror (taken ++ [f]) s) (hmem : s.mem = mem) :
    PortEnds taken f mem cur (.go s (cur + 1) (taken.length + 1))

/-- The ways out of the loop over `fields`, with the text `mem` in memory. -/
inductive Ends (fields : List (List UInt8)) (mem : List UInt8) : Result → Prop
  | busy {taken rest s} (hfields : fields = taken ++ mirror :: rest)
    (h : PortsSet devGetByName mirror taken s) : Ends fields mem (.ret s.freePorts (-ebusy))
  | noPort {taken f rest s} (hfields : fields = taken ++ f :: rest) (hf : f ≠ mirror)
    (hget : devGetByName f = none) (h : PortsSet devGetByName mirror taken s) :
    Ends fields mem (.ret (Mirror.freePorts { s with lookups := s.lookups ++ [f] }) (-enodev))
  | overrun {taken f rest s} (hfields : fields = taken ++ f :: rest)
    (htaken : ∀ g ∈ taken, good devGetByName mirror g = true)
    (hgood : good devGetByName mirror f = true) (hlen : taken.length = maxPorts) :
    Ends fields mem (.overrun s)
  | past {s toPtr} (h : PortsSet devGetByName mirror fields s) (hmem : s.mem = mem)
    (hto : cstr s.mem toPtr = mirror) : Ends fields mem (setMirror devGetByName s toPtr)

end Ends

/-! ## One field -/

theorem getLsbD_portBit (dev : NetDevice) {i : ℕ} (hi : i < 32) :
    (portBit dev).getLsbD i = true ↔ dev.ifindex % 32 = i := by
  rw [portBit, ← BitVec.twoPow_eq, BitVec.getLsbD_twoPow]
  simp only [Bool.and_eq_true, decide_eq_true_eq]
  omega

section Loop

variable {devGetByName : List UInt8 → Option NetDevice} {mirror : List UInt8}

theorem PortsSet.length_gets {taken : List (List UInt8)} {s : Mirror}
    (h : PortsSet devGetByName mirror taken s) : s.gets.length = taken.length := by
  rw [h.gets, List.length_filterMap_eq_countP, List.countP_eq_length]
  intro f hf
  have hgood := h.good f hf
  simp only [Net.good, decide_eq_true_eq] at hgood
  exact hgood.2

theorem PortsSet.init (mem : List UInt8) : PortsSet devGetByName mirror [] (Mirror.init mem) where
  good := fun _ hf => nomatch hf
  le := Nat.zero_le _
  lookups := rfl
  gets := rfl
  puts := rfl
  portsDev := fun _ => rfl
  bits := fun i _ => by simp [Mirror.init]

theorem PortsSet.write {taken : List (List UInt8)} {s : Mirror}
    (h : PortsSet devGetByName mirror taken s) (p : ℕ) (c : UInt8) :
    PortsSet devGetByName mirror taken (s.write p c) :=
  ⟨h.good, h.le, h.lookups, h.gets, h.puts, h.portsDev, h.bits⟩

theorem PortsSet.setPort {taken : List (List UInt8)} {f : List UInt8} {s : Mirror}
    {dev : NetDevice} {p : ℕ} (h : PortsSet devGetByName mirror taken s) (hf : f ≠ mirror)
    (hdev : devGetByName f = some dev) (hp : cstr s.mem p = f) (hlen : taken.length < maxPorts) :
    PortsSet devGetByName mirror (taken ++ [f])
      ((s.lookup p (some dev)).setPort taken.length dev) where
  good := by
    intro g hg
    obtain hg | hg := List.mem_append.1 hg
    · exact h.good g hg
    · rw [List.mem_singleton.1 hg]
      simp [Net.good, hf, hdev]
  le := by
    rw [List.length_append, List.length_singleton]
    omega
  lookups := by
    change s.lookups ++ [cstr s.mem p] = _
    rw [h.lookups, hp]
  gets := by
    change s.gets ++ [dev] = _
    rw [h.gets, List.filterMap_append]
    simp [hdev]
  puts := h.puts
  portsDev := by
    intro i
    change (if i = taken.length then some dev else s.portsDev i) = (s.gets ++ [dev])[i]?
    rw [h.portsDev, ← h.length_gets]
    split_ifs with hi
    · rw [hi, List.getElem?_concat_length]
    · by_cases hlt : i < s.gets.length
      · rw [List.getElem?_append_left hlt]
      · rw [List.getElem?_eq_none (by omega), List.getElem?_eq_none (by simp; omega)]
  bits := by
    intro i hi
    change (s.ifindexBits ||| portBit dev).getLsbD i = true ↔ ∃ d ∈ s.gets ++ [dev], _
    rw [BitVec.getLsbD_or, Bool.or_eq_true, h.bits i hi, getLsbD_portBit dev hi]
    simp only [List.mem_append, List.mem_singleton, or_and_right, exists_or, exists_eq_left]

/-- **The loop body at the end of a field.** The field `f` stands between `done` and the separator
`c`, which is mended if the loop goes on. -/
theorem dataPort_ends {done f after : List UInt8} {c : UInt8} {taken : List (List UInt8)}
    {s : Mirror} {toPtr fromPtr cur : ℕ} (hmem : s.mem = done ++ (f ++ c :: after)) (hf : 0 ∉ f)
    (hfrom : fromPtr = done.length) (hcur : cur = (done ++ f).length)
    (hto : cstr (done ++ (f ++ 0 :: after)) toPtr = mirror)
    (h : PortsSet devGetByName mirror taken s) :
    PortEnds devGetByName mirror taken f s.mem cur
      (dataPort devGetByName s toPtr fromPtr cur taken.length) := by
  have hcut : (s.write cur 0).mem = done ++ (f ++ 0 :: after) := by
    rw [Mirror.write, hmem, ← List.append_assoc, set_append_cons c 0 after hcur, List.append_assoc]
  have hfield : cstr (s.write cur 0).mem fromPtr = f := by
    rw [hcut]
    exact cstr_append done hf after hfrom
  have hset := h.write cur 0
  rw [dataPort, hcut, hto, ← hcut, hfield]
  by_cases hbusy : mirror = f
  · rw [if_pos hbusy]
    exact .busy hbusy.symm hset
  rw [if_neg hbusy]
  cases hdev : devGetByName f with
  | none =>
    have hlook : (s.write cur 0).lookup fromPtr none =
        { s.write cur 0 with lookups := (s.write cur 0).lookups ++ [f] } := by
      rw [Mirror.lookup, hfield, Option.toList_none, List.append_nil]
    simp only [hlook]
    exact .noPort (Ne.symm hbusy) hdev hset
  | some dev =>
    simp only
    split_ifs with hlen
    · refine .next ((hset.setPort (Ne.symm hbusy) hdev hfield hlen).write _ _) ?_
      change (s.write cur 0).mem.set cur (s.mem.getD cur 0) = s.mem
      rw [hcut, hmem, ← List.append_assoc, ← List.append_assoc, getD_append_cons c after hcur,
        set_append_cons 0 c after hcur]
    · refine .overrun ?_ (Nat.le_antisymm h.le (Nat.not_lt.1 hlen))
      simp [good, Ne.symm hbusy, hdev]

/-! ## The loop -/

theorem isSep_iff_isCut {c : UInt8} (h0 : c ≠ 0) (hat : c ≠ atSign) : isSep c = isCut c := by
  simp [isSep, isCut, h0, hat]

/-- A field that ends the loop ends it for every list of fields that goes on with it. -/
theorem PortEnds.stop {taken rest : List (List UInt8)} {f mem : List UInt8} {cur : ℕ} {r : Result}
    (htaken : ∀ g ∈ taken, good devGetByName mirror g = true)
    (h : PortEnds devGetByName mirror taken f mem cur (.stop r)) :
    Ends devGetByName mirror (taken ++ f :: rest) mem r := by
  cases h with
  | busy hf h => exact .busy (by rw [hf]) h
  | noPort hf hget h => exact .noPort rfl hf hget h
  | overrun hgood hlen => exact .overrun rfl htaken hgood hlen

/-- Where the loop stands in the text: `cur` behind `part` in the field that begins behind `done`,
with `rest` to come. -/
structure Reading (mirror tail done part rest mem : List UInt8) (toPtr fromPtr cur : ℕ) :
    Prop where
  mem : mem = done ++ (part ++ (rest ++ 0 :: (mirror ++ 0 :: tail)))
  noNul : 0 ∉ done ++ (part ++ rest)
  noAt : atSign ∉ rest
  mirrorNul : 0 ∉ mirror
  toPtr : toPtr = (done ++ (part ++ rest)).length + 1
  fromPtr : fromPtr = done.length
  cur : cur = (done ++ part).length

namespace Reading

variable {tail done part rest mem : List UInt8} {c : UInt8} {toPtr fromPtr cur : ℕ}

theorem strlen_eq (h : Reading mirror tail done part rest mem toPtr fromPtr cur) :
    strlen mem = (done ++ (part ++ rest)).length := by
  rw [h.mem, ← List.append_assoc part, ← List.append_assoc done, strlen_append h.noNul]

theorem getD_cur (h : Reading mirror tail done part (c :: rest) mem toPtr fromPtr cur) :
    mem.getD cur 0 = c := by
  rw [h.mem, List.cons_append, ← List.append_assoc, getD_append_cons c _ h.cur]

theorem getD_end (h : Reading mirror tail done part [] mem toPtr fromPtr cur) :
    mem.getD cur 0 = 0 := by
  rw [h.mem, List.nil_append, ← List.append_assoc, getD_append_cons 0 _ h.cur]

/-- The name of the mirror port stands behind the text, wherever the text is cut. -/
theorem cstr_to (h : Reading mirror tail done part (c :: rest) mem toPtr fromPtr cur) :
    cstr (done ++ (part ++ 0 :: (rest ++ 0 :: (mirror ++ 0 :: tail)))) toPtr = mirror := by
  have hto : toPtr = (done ++ part ++ 0 :: rest ++ [0]).length := by
    rw [h.toPtr]
    simp only [List.length_append, List.length_cons, List.length_nil]
    omega
  have := cstr_append (done ++ part ++ 0 :: rest ++ [0]) h.mirrorNul tail hto
  simpa using this

theorem cstr_to_end (h : Reading mirror tail done part [] mem toPtr fromPtr cur) :
    cstr (done ++ (part ++ 0 :: (mirror ++ 0 :: tail))) toPtr = mirror := by
  have hto : toPtr = (done ++ part ++ [0]).length := by
    rw [h.toPtr]
    simp only [List.length_append, List.length_cons, List.length_nil]
    omega
  have := cstr_append (done ++ part ++ [0]) h.mirrorNul tail hto
  simpa using this

theorem next (h : Reading mirror tail done part (c :: rest) mem toPtr fromPtr cur) :
    Reading mirror tail done (part ++ [c]) rest mem toPtr fromPtr (cur + 1) where
  mem := by rw [h.mem]; simp
  noNul := by simpa using h.noNul
  noAt := fun hmem => h.noAt (List.mem_cons_of_mem _ hmem)
  mirrorNul := h.mirrorNul
  toPtr := by rw [h.toPtr]; simp
  fromPtr := h.fromPtr
  cur := by rw [h.cur]; simp; omega

theorem nextField (h : Reading mirror tail done part (c :: rest) mem toPtr fromPtr cur) :
    Reading mirror tail (done ++ (part ++ [c])) [] rest mem toPtr (cur + 1) (cur + 1) where
  mem := by rw [h.mem]; simp
  noNul := by simpa using h.noNul
  noAt := fun hmem => h.noAt (List.mem_cons_of_mem _ hmem)
  mirrorNul := h.mirrorNul
  toPtr := by rw [h.toPtr]; simp
  fromPtr := by rw [h.cur]; simp; omega
  cur := by rw [h.cur]; simp; omega

end Reading

theorem portsLoop_last {tail done part : List UInt8} {taken : List (List UInt8)} {s : Mirror}
    {fuel toPtr fromPtr cur : ℕ}
    (hread : Reading mirror tail done part [] s.mem toPtr fromPtr cur) (hfuel : 2 ≤ fuel)
    (h : PortsSet devGetByName mirror taken s) :
    Ends devGetByName mirror (taken ++ [part]) s.mem
      (portsLoop devGetByName fuel s toPtr fromPtr cur taken.length) := by
  obtain ⟨fuel, rfl⟩ : ∃ n, fuel = n + 2 := ⟨fuel - 2, by omega⟩
  have hstrlen : strlen s.mem = cur := by
    rw [hread.strlen_eq, List.append_nil, hread.cur]
  have hpart : 0 ∉ part := fun hp => hread.noNul (by simp [hp])
  have hend := dataPort_ends hread.mem hpart hread.fromPtr hread.cur hread.cstr_to_end h
  rw [portsLoop, if_pos hstrlen.ge, hread.getD_end, if_pos (show isSep 0 = true from rfl)]
  cases hpass : dataPort devGetByName s toPtr fromPtr cur taken.length with
  | stop r =>
    rw [hpass] at hend
    exact hend.stop h.good
  | go s' fromPtr' count =>
    rw [hpass] at hend
    cases hend with
    | next h' hmem' =>
      simp only
      rw [portsLoop, if_neg (by rw [hmem', hstrlen]; omega)]
      exact .past h' hmem' (by rw [hmem', hread.mem]; exact hread.cstr_to_end)

/-- **The loop.** The fields of `taken` are done. -/
theorem portsLoop_ends {tail done part rest : List UInt8} {taken : List (List UInt8)} {s : Mirror}
    {fuel toPtr fromPtr cur : ℕ}
    (hread : Reading mirror tail done part rest s.mem toPtr fromPtr cur)
    (hfuel : rest.length + 2 ≤ fuel) (h : PortsSet devGetByName mirror taken s) :
    Ends devGetByName mirror (taken ++ rest.splitOnPPrepend isCut part.reverse) s.mem
      (portsLoop devGetByName fuel s toPtr fromPtr cur taken.length) := by
  induction rest generalizing done part taken s fuel fromPtr cur with
  | nil =>
    rw [List.splitOnPPrepend_nil, List.reverse_reverse]
    exact portsLoop_last hread hfuel h
  | cons c rest ih =>
    obtain ⟨fuel, rfl⟩ : ∃ n, fuel = n + 1 := ⟨fuel - 1, by omega⟩
    have hc0 : c ≠ 0 := fun hc => hread.noNul (by simp [hc])
    have hat : c ≠ atSign := fun hc => hread.noAt (by simp [hc])
    have hfuel' : rest.length + 2 ≤ fuel := by
      rw [List.length_cons] at hfuel
      omega
    have hle : cur ≤ strlen s.mem := by
      rw [hread.strlen_eq, hread.cur]
      simp
    rw [portsLoop, if_pos hle, hread.getD_cur, isSep_iff_isCut hc0 hat]
    by_cases hcut : isCut c = true
    · have hpart : 0 ∉ part := fun hp => hread.noNul (by simp [hp])
      have hend := dataPort_ends hread.mem hpart hread.fromPtr hread.cur hread.cstr_to h
      rw [if_pos hcut, List.splitOnPPrepend_cons_pos hcut, List.reverse_reverse]
      cases hpass : dataPort devGetByName s toPtr fromPtr cur taken.length with
      | stop r =>
        rw [hpass] at hend
        exact hend.stop h.good
      | go s' fromPtr' count =>
        rw [hpass] at hend
        cases hend with
        | next h' hmem' =>
          have hread' := hread.nextField
          rw [← hmem'] at hread'
          have hrest := ih hread' hfuel' h'
          rw [hmem', List.reverse_nil, List.splitOnPPrepend_nil_right, List.append_assoc,
            List.length_append] at hrest
          exact hrest
    · have hrest := ih hread.next hfuel' h
      rw [List.reverse_append] at hrest
      rw [if_neg hcut, List.splitOnPPrepend_cons_neg (by simpa using hcut)]
      exact hrest

end Loop

/-! ## The whole function -/

theorem takeWhile_front {α : Type*} {p : α → Bool} {front : List α} {x : α}
    (hfront : ∀ y ∈ front, p y = true) (hx : p x = false) (rest : List α) :
    (front ++ x :: rest).takeWhile p = front ∧ (front ++ x :: rest).dropWhile p = x :: rest := by
  have hx' : ¬p x = true := by simp [hx]
  rw [List.takeWhile_append_of_pos hfront, List.dropWhile_append_of_pos hfront,
    List.takeWhile_cons_of_neg hx', List.dropWhile_cons_of_neg hx']
  exact ⟨List.append_nil _, rfl⟩

theorem text_split {front : List UInt8} (h : atSign ∉ front) (rest : List UInt8) :
    portsText (front ++ atSign :: rest) = front ∧ mirrorName (front ++ atSign :: rest) = rest := by
  have hfront : ∀ c ∈ front, decide (c ≠ atSign) = true := by
    intro c hc
    exact decide_eq_true fun heq => h (heq ▸ hc)
  obtain ⟨htake, hdrop⟩ := takeWhile_front hfront (by simp : decide (atSign ≠ atSign) = false) rest
  rw [portsText, mirrorName, htake, hdrop]
  exact ⟨rfl, rfl⟩

/-- **`option_setup` on a text with an `@`.** -/
theorem optionSetup_ends (devGetByName : List UInt8 → Option NetDevice) {opt : List UInt8}
    (h0 : 0 ∉ opt) (hat : atSign ∈ opt) (tail : List UInt8) :
    Ends devGetByName (mirrorName opt) (fields opt)
      (portsText opt ++ 0 :: (mirrorName opt ++ 0 :: tail))
      (optionSetup devGetByName (Mirror.init (opt ++ 0 :: tail))) := by
  obtain ⟨front, mirror, rfl, hfront⟩ := List.eq_append_cons_of_mem hat
  obtain ⟨htext, hmirror⟩ := text_split hfront mirror
  rw [fields, htext, hmirror]
  have hmem : (front ++ atSign :: mirror ++ 0 :: tail).set front.length 0 =
      front ++ 0 :: (mirror ++ 0 :: tail) := by
    rw [List.append_assoc, List.cons_append]
    exact set_append_cons _ _ _ rfl
  have hread : Reading mirror tail [] [] front (front ++ 0 :: (mirror ++ 0 :: tail))
      (front.length + 1) 0 0 :=
    ⟨rfl, fun h => h0 (List.mem_append_left _ h), hfront,
      fun h => h0 (List.mem_append_right _ (List.mem_cons_of_mem _ h)), rfl, rfl, rfl⟩
  have hset : PortsSet devGetByName mirror []
      ((Mirror.init (front ++ atSign :: mirror ++ 0 :: tail)).write front.length 0) :=
    (PortsSet.init _).write _ _
  rw [← hmem] at hread ⊢
  rw [optionSetup, Mirror.init, strchr_append h0, idxOf?_append_cons hfront mirror]
  refine portsLoop_ends hread ?_ hset
  simp only [List.length_append, List.length_cons]
  omega

theorem optionSetup_no_at (devGetByName : List UInt8 → Option NetDevice) {opt : List UInt8}
    (h0 : 0 ∉ opt) (hat : atSign ∉ opt) (tail : List UInt8) :
    optionSetup devGetByName (Mirror.init (opt ++ 0 :: tail)) =
      .ret (Mirror.init (opt ++ 0 :: tail)) (-einval) := by
  rw [optionSetup]
  have hstrchr : strchr (Mirror.init (opt ++ 0 :: tail)).mem atSign = none := by
    change strchr (opt ++ 0 :: tail) atSign = none
    rw [strchr_append h0, List.idxOf?_eq_none_iff]
    exact hat
  rw [hstrchr]

/-! ## What the parsing is for -/

/-- The names that were looked up. -/
def Result.lookups : Result → List (List UInt8)
  | .ret s _ | .overrun s => s.lookups
  | .outOfFuel => []

/-- The text, as it was left. -/
def Result.mem : Result → List UInt8
  | .ret s _ | .overrun s => s.mem
  | .outOfFuel => []

section Parses

variable (devGetByName : List UInt8 → Option NetDevice) (opt : List UInt8)

/-- Every field of the option text is good. -/
def AllGood : Prop :=
  ∀ f ∈ fields opt, good devGetByName (mirrorName opt) f = true

/-- The names to look up: the fields up to the first that is not good, then the mirror port. A field
that names the mirror port fails without a lookup. -/
def wanted : List (List UInt8) :=
  (fields opt).takeWhile (good devGetByName (mirrorName opt)) ++
    match (fields opt).dropWhile (good devGetByName (mirrorName opt)) with
    | [] => [mirrorName opt]
    | f :: _ => if f = mirrorName opt then [] else [f]

/-- **The options are parsed as they should be.** -/
structure Parses (r : Result) : Prop where
  terminates : r ≠ .outOfFuel
  inBounds : ∀ s, r ≠ .overrun s
  lookups : r.lookups = if atSign ∈ opt then wanted devGetByName opt else []
  /-- behind the loop, the text before the `@` is as it was -/
  text : atSign ∈ opt → AllGood devGetByName opt → portsText opt <+: r.mem
  zero : (∃ s, r = .ret s 0) ↔ atSign ∈ opt ∧ AllGood devGetByName opt ∧
    (fields opt).length ≤ maxPorts ∧ (devGetByName (mirrorName opt)).isSome = true

/-- More than `MAX_PORTS` fields are good before the first other one. -/
def Overruns : Prop :=
  atSign ∈ opt ∧ maxPorts < ((fields opt).takeWhile (good devGetByName (mirrorName opt))).length

instance : Decidable (Overruns devGetByName opt) :=
  inferInstanceAs (Decidable (_ ∧ _))

variable {devGetByName opt}

theorem good_mirror {mirror : List UInt8} : good devGetByName mirror mirror = false := by
  simp [good]

theorem good_of_none {mirror f : List UInt8} (h : devGetByName f = none) :
    good devGetByName mirror f = false := by
  simp [good, h]

theorem not_allGood {taken rest : List (List UInt8)} {f : List UInt8}
    (hfields : fields opt = taken ++ f :: rest)
    (hf : good devGetByName (mirrorName opt) f = false) : ¬AllGood devGetByName opt := by
  intro hall
  have := hall f (by rw [hfields]; simp)
  rw [hf] at this
  cases this

theorem wanted_of_bad {taken rest : List (List UInt8)} {f : List UInt8}
    (hfields : fields opt = taken ++ f :: rest)
    (htaken : ∀ g ∈ taken, good devGetByName (mirrorName opt) g = true)
    (hf : good devGetByName (mirrorName opt) f = false) :
    wanted devGetByName opt = taken ++ if f = mirrorName opt then [] else [f] := by
  obtain ⟨htake, hdrop⟩ := takeWhile_front htaken hf rest
  rw [wanted, hfields, htake, hdrop]

theorem wanted_of_allGood (h : AllGood devGetByName opt) :
    wanted devGetByName opt = fields opt ++ [mirrorName opt] := by
  rw [wanted, List.takeWhile_eq_self_iff.2 h, List.dropWhile_eq_nil_iff.2 h]

theorem Parses.ret {s : Mirror} {value : ℤ}
    (hlookups : s.lookups = if atSign ∈ opt then wanted devGetByName opt else [])
    (htext : atSign ∈ opt → AllGood devGetByName opt → portsText opt <+: s.mem)
    (hzero : value = 0 ↔ atSign ∈ opt ∧ AllGood devGetByName opt ∧
      (fields opt).length ≤ maxPorts ∧ (devGetByName (mirrorName opt)).isSome = true) :
    Parses devGetByName opt (.ret s value) where
  terminates := fun h => nomatch h
  inBounds := fun _ h => nomatch h
  lookups := hlookups
  text := htext
  zero := by simpa using hzero

theorem parses_refused {s : Mirror} {value : ℤ} (hat : atSign ∈ opt) (hvalue : value ≠ 0)
    (hall : ¬AllGood devGetByName opt) (hlookups : s.lookups = wanted devGetByName opt) :
    Parses devGetByName opt (.ret s value) := by
  refine .ret ?_ (fun _ h => absurd h hall) (iff_of_false hvalue fun h => hall h.2.1)
  rw [if_pos hat]
  exact hlookups

theorem parses_setMirror {s : Mirror} {toPtr : ℕ} {rest : List UInt8} (hat : atSign ∈ opt)
    (h : PortsSet devGetByName (mirrorName opt) (fields opt) s)
    (hmem : s.mem = portsText opt ++ rest) (hto : cstr s.mem toPtr = mirrorName opt) :
    Parses devGetByName opt (setMirror devGetByName s toPtr) := by
  have hlookups : s.lookups ++ [cstr s.mem toPtr] =
      if atSign ∈ opt then wanted devGetByName opt else [] := by
    rw [if_pos hat, wanted_of_allGood h.good, h.lookups, hto]
  have htext : portsText opt <+: s.mem := ⟨rest, hmem.symm⟩
  rw [setMirror, hto]
  cases hdev : devGetByName (mirrorName opt) with
  | none =>
    refine .ret hlookups (fun _ _ => htext) (iff_of_false (by decide) fun hz => ?_)
    have hsome := hz.2.2.2
    rw [hdev] at hsome
    cases hsome
  | some dev =>
    refine .ret hlookups (fun _ _ => htext) (iff_of_true rfl ⟨hat, h.good, h.le, ?_⟩)
    rw [hdev]
    rfl

theorem Ends.parses {rest : List UInt8} {r : Result} (hat : atSign ∈ opt)
    (h : Ends devGetByName (mirrorName opt) (fields opt) (portsText opt ++ rest) r)
    (hno : ¬Overruns devGetByName opt) : Parses devGetByName opt r := by
  cases h with
  | busy hfields h =>
    refine parses_refused hat (by decide) (not_allGood hfields good_mirror) ?_
    rw [wanted_of_bad hfields h.good good_mirror, if_pos rfl, List.append_nil]
    exact h.lookups
  | @noPort taken f rest s hfields hf hget h =>
    refine parses_refused hat (by decide) (not_allGood hfields (good_of_none hget)) ?_
    rw [wanted_of_bad hfields h.good (good_of_none hget), if_neg hf]
    exact congrArg (· ++ [f]) h.lookups
  | @overrun taken f rest s hfields htaken hgood hlen =>
    refine absurd ⟨hat, ?_⟩ hno
    have hgoods : ∀ g ∈ taken ++ [f], good devGetByName (mirrorName opt) g = true := by
      intro g hg
      obtain hg | hg := List.mem_append.1 hg
      · exact htaken g hg
      · rw [List.mem_singleton.1 hg]
        exact hgood
    have happend : taken ++ f :: rest = taken ++ [f] ++ rest := by simp
    rw [hfields, happend, List.takeWhile_append_of_pos hgoods]
    simp only [List.length_append, List.length_cons]
    omega
  | past h hmem hto => exact parses_setMirror hat h hmem hto

theorem Ends.overrun_of_overruns {mem : List UInt8} {r : Result}
    (h : Ends devGetByName (mirrorName opt) (fields opt) mem r)
    (hover : Overruns devGetByName opt) : ∃ s, r = .overrun s := by
  obtain ⟨-, hlt⟩ := hover
  cases h with
  | busy hfields h =>
    rw [hfields, (takeWhile_front h.good good_mirror _).1] at hlt
    exact absurd h.le (Nat.not_le.2 hlt)
  | noPort hfields hf hget h =>
    rw [hfields, (takeWhile_front h.good (good_of_none hget) _).1] at hlt
    exact absurd h.le (Nat.not_le.2 hlt)
  | @overrun _ _ _ s => exact ⟨s, rfl⟩
  | past h =>
    rw [List.takeWhile_eq_self_iff.2 h.good] at hlt
    exact absurd h.le (Nat.not_le.2 hlt)

end Parses

/-- **The options are parsed as they should be exactly when there are not more than `MAX_PORTS` good
fields before the first other one.** -/
theorem parses_iff_not_overruns (devGetByName : List UInt8 → Option NetDevice)
    (opt tail : List UInt8) (h0 : 0 ∉ opt) :
    Parses devGetByName opt (optionSetup devGetByName (Mirror.init (opt ++ 0 :: tail))) ↔
      ¬Overruns devGetByName opt := by
  by_cases hat : atSign ∈ opt
  · have hends := optionSetup_ends devGetByName h0 hat tail
    constructor
    · intro hparses hover
      obtain ⟨s, hs⟩ := hends.overrun_of_overruns hover
      exact hparses.inBounds s hs
    · exact hends.parses hat
  · rw [optionSetup_no_at devGetByName h0 hat]
    refine iff_of_true ?_ fun hover => hat hover.1
    refine .ret ?_ (fun h => absurd h hat) (iff_of_false (by decide) fun hz => hat hz.1)
    rw [if_neg hat]
    rfl

/-- A text with `n` fields `e` and the mirror port `m`. -/
def manyPorts (n : ℕ) : List UInt8 :=
  (List.replicate (n - 1) [0x65, slash]).flatten ++ [0x65, atSign, 0x6d]

/-- Two interfaces, `e` and `m`. -/
def twoDevices (name : List UInt8) : Option NetDevice :=
  if name = [0x65] then some ⟨2⟩ else if name = [0x6d] then some ⟨3⟩ else none

theorem parses_manyPorts :
    0 ∉ manyPorts 32 ∧
      Parses twoDevices (manyPorts 32)
        (optionSetup twoDevices (Mirror.init (manyPorts 32 ++ 0 :: []))) :=
  ⟨by decide, (parses_iff_not_overruns twoDevices (manyPorts 32) [] (by decide)).2 (by decide)⟩

/-- The 33rd port is stored behind the array. -/
theorem manyPorts_overrun :
    (manyPorts 33).length ≤ 255 ∧ 0 ∉ manyPorts 33 ∧
      ∃ s, optionSetup twoDevices (Mirror.init (manyPorts 33 ++ 0 :: [])) = .overrun s ∧
        ¬Parses twoDevices (manyPorts 33) (.overrun s) := by
  have h0 : 0 ∉ manyPorts 33 := by decide
  obtain ⟨s, hs⟩ :=
    (optionSetup_ends twoDevices h0 (by decide) []).overrun_of_overruns (by decide)
  exact ⟨by decide, h0, s, hs, fun h => h.inBounds s rfl⟩

end LddExample.Net
