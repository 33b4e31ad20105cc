import LddExample.Composite.Fits

/-!
# Requests that are safe

* `Safe p`: the program ends without a fault, whatever the functions answer.
* `safe_…`: the programs of the framework, one by one; `yes` answers zero to everything and lets
  the others fail.
* **`setup_safe_iff`**: a request is safe exactly when it does not ask for an endpoint without a
  configuration, and does not choose a configuration with a function that has no descriptors for
  the speed.
-/

namespace LddExample.Composite

open Interact ScaleUsb

variable {D : Device} (g : Gadget) {σ α β : Type}

/-- The program ends without a fault, whatever is answered. -/
def Safe (p : Prog α) : Prop :=
  ∀ (σ : Type) (h : Hardware Call Call.Answer σ) (w : σ), ∃ a, (run h p w).1 = .ok a

theorem Safe.bind {p : Prog α} {f : α → Prog β} (hp : Safe p) (hf : ∀ a, Safe (f a)) :
    Safe (p >>= f) := by
  intro σ h w
  obtain ⟨a, ha⟩ := hp σ h w
  rw [run_bind, ha]
  exact hf a σ h _

theorem Safe.pure (a : α) : Safe (pure a : Prog α) := fun _ _ _ => ⟨a, rfl⟩

theorem Safe.perform (i : Call) : Safe (.perform i : Prog i.Answer) := fun _ _ _ => ⟨_, rfl⟩

theorem Safe.ite {c : Prop} [Decidable c] {p p' : Prog α} (hp : c → Safe p) (hp' : ¬c → Safe p') :
    Safe (if c then p else p') := by
  by_cases hc : c
  · rw [if_pos hc]
    exact hp hc
  · rw [if_neg hc]
    exact hp' hc

theorem safe_disableAll (fs : List ℕ) (s : Ctl) : Safe (disableAll D fs s) := by
  induction fs generalizing s with
  | nil => exact .pure s
  | cons f fs ih =>
    rw [disableAll]
    cases (D.fns f).disable with
    | false => exact ih _
    | true => exact (Safe.perform (.disable f)).bind fun _ => ih _

theorem safe_resetConfig {s : Ctl} {c : Configuration} (hc : s.config = some c) :
    Safe (resetConfig D s) := by
  rw [resetConfig, hc]
  exact (safe_disableAll c.functions s).bind fun _ => .pure _

theorem safe_leaveConfig (s : Ctl) : Safe (leaveConfig D s) := by
  rw [leaveConfig]
  cases hc : s.config with
  | none => exact .pure s
  | some c => exact safe_resetConfig hc

theorem safe_setAlt {f : ℕ} (hf : (D.fns f).Usable) (intf alt : ℕ) :
    Safe (setAlt D f intf alt) := by
  rw [setAlt, if_pos hf.1]
  exact .perform _

theorem Ctl.delay_config (s : Ctl) (result : ℤ) : (s.delay result).config = s.config := by
  rw [Ctl.delay]
  split_ifs
  · rfl
  · rfl

theorem safe_startInterfaces {c : Configuration} (fs : List ℕ) (tmp : ℕ) (result : ℤ) {s : Ctl}
    (hc : s.config = some c) (hfs : ∀ f ∈ fs, (D.fns f).Usable)
    (hds : ∀ f ∈ fs, speedDescriptors D.fns (g.speed == .high) f ≠ none) :
    Safe (startInterfaces D g tmp fs result s) := by
  induction fs generalizing tmp result s with
  | nil => exact .pure _
  | cons f fs ih =>
    rw [startInterfaces]
    cases hf : speedDescriptors D.fns (g.speed == .high) f with
    | none => exact absurd hf (hds f List.mem_cons_self)
    | some ds =>
      refine (safe_setAlt (hfs f List.mem_cons_self) tmp 0).bind fun result' => .ite (fun _ => ?_)
        fun _ => ?_
      · have hc' : (s.note f ds).config = some c := hc
        exact (safe_resetConfig hc').bind fun _ => .pure _
      · refine ih _ _ ?_ (fun f' hf' => hfs f' (List.mem_cons_of_mem f hf')) fun f' hf' =>
          hds f' (List.mem_cons_of_mem f hf')
        rw [Ctl.delay_config]
        exact hc

theorem startInterfaces_fault (fs : List ℕ) (tmp : ℕ) (result : ℤ) (s : Ctl)
    (hfs : ∀ f ∈ fs, (D.fns f).Usable)
    (hds : ∃ f ∈ fs, speedDescriptors D.fns (g.speed == .high) f = none) :
    (run yes (startInterfaces D g tmp fs result s) ()).1 = .error .nullPointer := by
  induction fs generalizing tmp result s with
  | nil =>
    obtain ⟨f, hf, -⟩ := hds
    cases hf
  | cons f fs ih =>
    rw [startInterfaces]
    cases hf : speedDescriptors D.fns (g.speed == .high) f with
    | none => rfl
    | some ds =>
      have hset : run yes (setAlt D f tmp 0) () = (.ok 0, ()) := by
        rw [setAlt, if_pos (hfs f List.mem_cons_self).1]
        rfl
      dsimp only
      rw [run_bind, hset]
      dsimp only
      rw [if_neg (by decide)]
      refine ih _ _ _ (fun f' hf' => hfs f' (List.mem_cons_of_mem f hf')) ?_
      obtain ⟨f', hf', hnone⟩ := hds
      obtain rfl | hf' := List.mem_cons.mp hf'
      · rw [hf] at hnone
        cases hnone
      · exact ⟨f', hf', hnone⟩

/-- The request chooses a configuration that is not complete for the speed. -/
def ChoosesIncomplete (D : Device) (g : Gadget) (ctrl : CtrlRequest) : Prop :=
  ctrl.bRequest = usbReqSetConfiguration ∧ ctrl.bRequestType = 0 ∧ ctrl.wValue ≠ 0 ∧
    ∃ c, D.configs.find? (fun c => c.bConfigurationValue.toNat == ctrl.wValue.toNat) = some c ∧
      ∃ f ∈ c.interface, speedDescriptors D.fns (g.speed == .high) f = none

/-- The request is for an endpoint, and there is no configuration. -/
def AsksUnconfigured (ctrl : CtrlRequest) (s : Ctl) : Prop :=
  ctrl.bRequestType &&& 0x1f = 2 ∧ s.config = none

theorem safe_respond (wLength : ℕ) (value : ℤ) (s : Ctl) : Safe (respond wLength value s) :=
  .ite (fun _ => (Safe.perform _).bind fun _ => .pure _) fun _ => .pure _

theorem safe_setConfigDone (power : ℕ) (result : ℤ) (s : Ctl) :
    Safe (setConfigDone power result s) :=
  (Safe.perform (.vbusDraw power)).bind fun _ => .pure _

theorem safe_setConfig (hD : D.Sound) (ctrl : CtrlRequest) (s : Ctl)
    (hcomplete : ∀ c, D.configs.find? (fun c => c.bConfigurationValue.toNat == ctrl.wValue.toNat) =
      some c → ctrl.wValue ≠ 0 → ∀ f ∈ c.interface,
        speedDescriptors D.fns (g.speed == .high) f ≠ none) :
    Safe (setConfig D g ctrl.wValue.toNat s) := by
  refine (safe_leaveConfig s).bind fun s' => .ite (fun _ => safe_setConfigDone _ _ _) fun hne => ?_
  cases hfind : D.configs.find? fun c => c.bConfigurationValue.toNat == ctrl.wValue.toNat with
  | none => exact safe_setConfigDone _ _ _
  | some c =>
    have hmem := List.mem_of_find?_eq_some hfind
    have hstart := safe_startInterfaces g (s := { s' with config := some c }) c.interface 0 0 rfl
      (fun f hf => (hD c hmem).usable f (.inr hf))
      (hcomplete c hfind fun hzero => hne (by rw [hzero]; rfl))
    exact hstart.bind fun r => safe_setConfigDone _ _ _

theorem setConfig_fault (hD : D.Sound) {number : ℕ} (hnumber : number ≠ 0) (s : Ctl)
    {c : Configuration}
    (hfind : D.configs.find? (fun c => c.bConfigurationValue.toNat == number) = some c)
    (hds : ∃ f ∈ c.interface, speedDescriptors D.fns (g.speed == .high) f = none) :
    (run yes (setConfig D g number s) ()).1 = .error .nullPointer := by
  obtain ⟨s', hs'⟩ := safe_leaveConfig (D := D) s Unit yes ()
  have hstart := startInterfaces_fault g c.interface 0 0 { s' with config := some c }
    (fun f hf => (hD c (List.mem_of_find?_eq_some hfind)).usable f (.inr hf)) hds
  rw [setConfig, run_bind, hs']
  dsimp only
  rw [if_neg hnumber, hfind]
  dsimp only
  rw [run_bind, hstart]

theorem safe_configRequest (s : Ctl) : Safe (configRequest? s) := by
  rw [configRequest?]
  cases s.config with
  | none => exact .pure _
  | some c =>
    dsimp only
    cases c.setup with
    | false => exact .pure _
    | true => exact .perform _

theorem safe_unknown (ctrl : CtrlRequest) (s : Ctl) (hask : ¬AsksUnconfigured ctrl s) :
    Safe (unknown D ctrl s) := by
  have hrecipient : ∃ f, recipient ctrl s = .ok f := by
    rw [recipient]
    split_ifs with hone htwo
    · exact ⟨_, rfl⟩
    · cases hc : s.config with
      | none => exact absurd ⟨htwo, hc⟩ hask
      | some c => exact ⟨_, rfl⟩
    · exact ⟨_, rfl⟩
  obtain ⟨f, hf⟩ := hrecipient
  rw [unknown, hf]
  cases f with
  | none => exact (safe_configRequest s).bind fun _ => .pure _
  | some f =>
    dsimp only
    cases (D.fns f).setup with
    | false => exact (safe_configRequest s).bind fun _ => .pure _
    | true => exact (Safe.perform (.setup f)).bind fun _ => .pure _

theorem safe_compositeSetup (hD : D.Sound) (ctrl : CtrlRequest) {s : Ctl}
    (hs : ∀ c, s.config = some c → c ∈ D.configs) (hask : ¬AsksUnconfigured ctrl s)
    (hchoose : ¬ChoosesIncomplete D g ctrl) : Safe (compositeSetup D g ctrl s) := by
  rw [compositeSetup]
  refine .ite (fun _ => ?_) fun _ => .ite (fun hset => ?_) fun _ => .ite (fun _ => ?_) fun _ =>
    .ite (fun _ => ?_) fun _ => .ite (fun _ => ?_) fun _ => safe_unknown ctrl s hask
  · cases getDescriptor D g ctrl with
    | ok r => exact safe_respond _ _ _
    | error e => exact safe_respond _ _ _
  · refine (safe_setConfig g hD ctrl s fun c hc hne f hf hnone => ?_).bind fun r =>
      safe_respond _ _ _
    exact hchoose ⟨hset.1, hset.2, hne, c, hc, f, hf, hnone⟩
  · exact safe_respond _ _ _
  · cases hf : s.interfaceOf ctrl with
    | none => exact safe_respond _ _ _
    | some f =>
      obtain ⟨c, hc, hmem⟩ := Ctl.current_of_interfaceOf hf
      have husable := (hD c (hs c hc)).usable f (.inr hmem)
      exact .ite (fun _ => safe_respond _ _ _) fun _ =>
        (safe_setAlt husable _ _).bind fun _ => safe_respond _ _ _
  · cases s.interfaceOf ctrl with
    | none => exact safe_respond _ _ _
    | some f =>
      have hreply : ∀ value : ℤ, Safe (if value < 0 then respond ctrl.wLength.toNat value s
          else respond ctrl.wLength.toNat (min ctrl.wLength.toNat 1 : ℕ)
            (s.put [UInt8.ofNat value.toNat])) :=
        fun value => .ite (fun _ => safe_respond _ _ _) fun _ => safe_respond _ _ _
      dsimp only
      cases (D.fns f).getAlt with
      | false => exact hreply 0
      | true => exact (Safe.perform (.getAlt f _)).bind hreply

theorem compositeSetup_fault (hD : D.Sound) (ctrl : CtrlRequest) (s : Ctl)
    (h : AsksUnconfigured ctrl s ∨ ChoosesIncomplete D g ctrl) :
    (run yes (compositeSetup D g ctrl s) ()).1 = .error .nullPointer := by
  obtain ⟨hrecip, hc⟩ | ⟨hreq, htype, hne, c, hfind, hds⟩ := h
  · have hnot : ctrl.bRequestType ≠ usbDirIn ∧ ctrl.bRequestType ≠ 0 ∧
        ctrl.bRequestType ≠ usbRecipInterface ∧
        ctrl.bRequestType ≠ usbDirIn ||| usbRecipInterface := by
      refine ⟨?_, ?_, ?_, ?_⟩ <;>
        · intro heq
          rw [heq] at hrecip
          exact absurd hrecip (by decide)
    have hrecipient : recipient ctrl s = .error .nullPointer := by
      rw [recipient, hrecip, hc]
      rfl
    rw [compositeSetup]
    dsimp only
    rw [if_neg fun h => hnot.1 h.2, if_neg fun h => hnot.2.1 h.2, if_neg fun h => hnot.1 h.2,
      if_neg fun h => hnot.2.2.1 h.2, if_neg fun h => hnot.2.2.2 h.2, unknown, hrecipient]
    rfl
  · have hnumber : ctrl.wValue.toNat ≠ 0 := fun h => hne (UInt16.toNat_inj.mp h)
    have hfault := setConfig_fault g hD hnumber s hfind hds
    rw [compositeSetup]
    dsimp only
    rw [if_neg fun h => absurd (hreq.symm.trans h.1) (by decide), if_pos ⟨hreq, htype⟩, run_bind,
      hfault]

/-- **Requests that are safe.** In every state that a run reaches, a request is safe, whatever the
functions answer, exactly when it is not for an endpoint while there is no configuration, and does
not choose a configuration with an interface whose function has no descriptors for the speed. -/
theorem setup_safe_iff (D : Device) (l : List DeviceAsk)
    (hD : D.configs = (build D.fns l).configs) (h : Hardware Call Call.Answer σ) (w : σ)
    (acts : List Act) (s : Ctl) (w' : σ) (running : ℕ → Bool)
    (hrun : Lts.exec (actStep D h) (.init, w, fun _ => false) acts = some (s, w', running))
    (g : Gadget) (ctrl : CtrlRequest) :
    Safe (compositeSetup D g ctrl s) ↔
      ¬AsksUnconfigured ctrl s ∧ ¬ChoosesIncomplete D g ctrl := by
  have hsound := Device.sound_of_build hD
  constructor
  · intro hsafe
    obtain ⟨r, hr⟩ := hsafe Unit yes ()
    rw [← not_or]
    intro hfault
    rw [compositeSetup_fault g hsound ctrl s hfault] at hr
    cases hr
  · rintro ⟨hask, hchoose⟩
    exact safe_compositeSetup g hsound ctrl (exec_fits hsound hrun).config hask hchoose

theorem setup_safe_iff_high :
    ¬Safe (compositeSetup fullSpeedDevice ⟨true, false, .high⟩ chooseFirst .init) := by
  rw [setup_safe_iff fullSpeedDevice fullSpeedAsks rfl yes () [] _ _ _ rfl]
  exact fun h => h.2 ⟨rfl, rfl, by decide, _, rfl, 7, by decide, rfl⟩

end LddExample.Composite
