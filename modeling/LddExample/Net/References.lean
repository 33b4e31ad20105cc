import LddExample.Net.Options
import Mathlib.Data.List.Perm.Basic

/-!
# The references of the mirror module

Each device that `dev_get_by_name` returns has to be given back with `dev_put`: by `option_setup`
when it fails, by `acleanup_module` when it does not.

* `Releases`: so it is for a result of `option_setup`.
* `PortsSet.filterMap_portsDev`: `free_ports` gives back the data ports.
* `MirrorMissing`: every field is good and the mirror port does not exist.
* **`releases_iff`**: the references are given back exactly when this is not so and `ports_dev` is
  large enough.
-/

namespace LddExample.Net

/-- **Every reference is given back once.** A call that writes behind `ports_dev` is not one that
does. -/
def Releases : Result → Prop
  | .ret s value =>
    (value < 0 → s.puts.Perm s.gets) ∧ (value = 0 → s.acleanupModule.puts.Perm s.gets)
  | .overrun _ | .outOfFuel => False

/-- The data ports are all there and the mirror port is not. -/
def MirrorMissing (devGetByName : List UInt8 → Option NetDevice) (opt : List UInt8) : Prop :=
  atSign ∈ opt ∧ AllGood devGetByName opt ∧ devGetByName (mirrorName opt) = none

instance (devGetByName : List UInt8 → Option NetDevice) (opt : List UInt8) :
    Decidable (MirrorMissing devGetByName opt) :=
  inferInstanceAs (Decidable (_ ∧ (∀ f ∈ fields opt, _) ∧ _))

theorem filterMap_getElem?_range {α : Type*} (l : List α) (n : ℕ) :
    (List.range n).filterMap (fun i => l[i]?) = l.take n := by
  induction n with
  | zero => rfl
  | succ n ih =>
    rw [List.range_succ, List.filterMap_append, ih, List.take_add_one]
    cases h : l[n]? with
    | none => simp [h]
    | some a => simp [h]

section Releases

variable {devGetByName : List UInt8 → Option NetDevice} {mirror : List UInt8}
  {taken : List (List UInt8)} {s : Mirror}

/-- `free_ports` finds every data port. -/
theorem PortsSet.filterMap_portsDev (h : PortsSet devGetByName mirror taken s) :
    (List.range 32).filterMap s.portsDev = s.gets := by
  have hle : s.gets.length ≤ 32 := h.length_gets.trans_le h.le
  have hports : s.portsDev = fun i => s.gets[i]? := funext h.portsDev
  rw [hports, filterMap_getElem?_range, List.take_of_length_le hle]

theorem PortsSet.releases_freePorts (h : PortsSet devGetByName mirror taken s)
    (names : List (List UInt8)) {value : ℤ} (hvalue : value < 0) :
    Releases (.ret (Mirror.freePorts { s with lookups := names }) value) := by
  refine ⟨fun _ => ?_, fun hzero => by omega⟩
  change (s.puts ++ (List.range 32).filterMap s.portsDev).Perm s.gets
  rw [h.puts, List.nil_append, h.filterMap_portsDev]

theorem PortsSet.gets_ne_nil {opt : List UInt8}
    (h : PortsSet devGetByName mirror (fields opt) s) : s.gets ≠ [] := by
  intro hnil
  have hlen := h.length_gets
  rw [hnil] at hlen
  exact List.splitOnP_ne_nil isCut (portsText opt) (List.eq_nil_of_length_eq_zero hlen.symm)

/-- **Behind the loop everything is given back exactly when the mirror port exists.** -/
theorem PortsSet.releases_setMirror {opt : List UInt8} {toPtr : ℕ}
    (h : PortsSet devGetByName mirror (fields opt) s) (hto : CString.cstr s.mem toPtr = mirror) :
    Releases (setMirror devGetByName s toPtr) ↔ devGetByName mirror ≠ none := by
  rw [setMirror, hto]
  cases hdev : devGetByName mirror with
  | none =>
    refine iff_of_false (fun hrel => ?_) fun hne => hne rfl
    have hperm : s.puts.Perm (s.gets ++ []) := hrel.1 (by decide)
    rw [h.puts, List.append_nil] at hperm
    exact h.gets_ne_nil hperm.symm.eq_nil
  | some dev =>
    refine iff_of_true ⟨fun hneg => by omega, fun _ => ?_⟩ (by simp)
    change (s.puts ++ [dev] ++ (List.range 32).filterMap s.portsDev).Perm (s.gets ++ [dev])
    rw [h.puts, List.nil_append, h.filterMap_portsDev]
    exact List.perm_append_comm

end Releases

/-- **The references are given back exactly when `ports_dev` is large enough and not only the mirror
port is missing.** -/
theorem releases_iff (devGetByName : List UInt8 → Option NetDevice) (opt tail : List UInt8)
    (h0 : 0 ∉ opt) :
    Releases (optionSetup devGetByName (Mirror.init (opt ++ 0 :: tail))) ↔
      ¬Overruns devGetByName opt ∧ ¬MirrorMissing devGetByName opt := by
  by_cases hat : atSign ∈ opt
  swap
  · rw [optionSetup_no_at devGetByName h0 hat]
    refine iff_of_true ⟨fun _ => List.Perm.refl _, fun hzero => ?_⟩
      ⟨fun hover => hat hover.1, fun hmiss => hat hmiss.1⟩
    exact absurd hzero (by decide)
  have hends := optionSetup_ends devGetByName h0 hat tail
  by_cases hover : Overruns devGetByName opt
  · obtain ⟨s, hs⟩ := hends.overrun_of_overruns hover
    rw [hs]
    exact iff_of_false id fun h => h.1 hover
  rw [and_iff_right hover]
  have hparses := hends.parses hat hover
  generalize optionSetup devGetByName (Mirror.init (opt ++ 0 :: tail)) = r at hends hparses
  cases hends with
  | busy hfields h =>
    refine iff_of_true (h.releases_freePorts _ (by decide)) fun hmiss => ?_
    exact not_allGood hfields good_mirror hmiss.2.1
  | noPort hfields hf hget h =>
    refine iff_of_true (h.releases_freePorts _ (by decide)) fun hmiss => ?_
    exact not_allGood hfields (good_of_none hget) hmiss.2.1
  | @overrun _ _ _ s => exact absurd rfl (hparses.inBounds s)
  | past h hmem hto =>
    rw [h.releases_setMirror hto, MirrorMissing]
    exact ⟨fun hne hmiss => hne hmiss.2.2, fun hmiss hnone => hmiss ⟨hat, h.good, hnone⟩⟩

/-- `e/e@m`, both of which exist. -/
theorem releases_manyPorts :
    0 ∉ manyPorts 2 ∧ Releases (optionSetup twoDevices (Mirror.init (manyPorts 2 ++ 0 :: []))) :=
  ⟨by decide, (releases_iff twoDevices (manyPorts 2) [] (by decide)).2 (by decide)⟩

/-- `e@x`, where `x` does not exist: the reference to `e` is kept. -/
theorem mirrorMissing_leaks :
    ∃ s, optionSetup twoDevices (Mirror.init [0x65, atSign, 0x78, 0]) = .ret s (-19) ∧
      s.gets = [⟨2⟩] ∧ s.puts = [] ∧ ¬Releases (.ret s (-19)) := by
  refine ⟨_, rfl, rfl, rfl, fun h => ?_⟩
  have hperm : List.Perm [] [(⟨2⟩ : NetDevice)] := h.1 (by decide)
  exact absurd hperm.length_eq (by decide)

end LddExample.Net
