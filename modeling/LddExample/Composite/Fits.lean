import LddExample.Composite.Control
import LddExample.Lib.Lts

/-!
# Functions and the current configuration

* `watch`: callbacks with a record of the functions that run, from `set_alt` to `disable`.
* `Runs h running p Q`: what holds of the result of `p` and of the functions that run after it.
* `Fits`: exactly the functions with an interface of the current configuration run, and exactly
  their endpoints are noted, in a device that covers up for none.
* `runs_…`: every program of the framework keeps this, whatever it is answered.
* **`functions_fit`**: it holds in every state of every run.
-/

namespace LddExample.Composite

open Interact ScaleUsb

/-! ## Functions that run -/

/-- A function runs from a call of `set_alt` to the next call of `disable`. -/
def Call.track (running : ℕ → Bool) : Call → ℕ → Bool
  | .setAlt f _ _ => fun g => if g = f then true else running g
  | .disable f => fun g => if g = f then false else running g
  | _ => running

variable (D : Device) (g : Gadget) {σ : Type}

/-- The callbacks with a record of the functions that run. -/
def watch (h : Hardware Call Call.Answer σ) : Hardware Call Call.Answer (σ × (ℕ → Bool)) :=
  fun i s => ((h i s.1).1, (h i s.1).2, i.track s.2)

/-- One entry point; a fault ends the run. -/
def actStep (h : Hardware Call Call.Answer σ) (s : Ctl × σ × (ℕ → Bool)) (a : Act) :
    Option (Ctl × σ × (ℕ → Bool)) :=
  match run (watch h) (a.prog D s.1) s.2 with
  | (.ok c, w) => some (c, w)
  | (.error _, _) => none

/-- When the functions `running` run before `p`, then `Q` holds of its result and of the functions
that run after it. -/
def Runs {α : Type} (h : Hardware Call Call.Answer σ) (running : ℕ → Bool) (p : Prog α)
    (Q : α → (ℕ → Bool) → Prop) : Prop :=
  Spec (watch h) (fun w => w.2 = running) p fun r w => ∀ a, r = .ok a → Q a w.2

variable {D} {h : Hardware Call Call.Answer σ} {running : ℕ → Bool} {α β : Type}

theorem Runs.bind {p : Prog α} {f : α → Prog β} {Q : α → (ℕ → Bool) → Prop}
    {Q' : β → (ℕ → Bool) → Prop} (hp : Runs h running p Q)
    (hf : ∀ a running', Q a running' → Runs h running' (f a) Q') :
    Runs h running (p >>= f) Q' := by
  refine Spec.bind hp (fun a => ?_) fun e w _ b hb => nomatch hb
  intro w hw
  exact hf a w.2 (hw a rfl) w rfl

theorem Runs.pure {a : α} {Q : α → (ℕ → Bool) → Prop} (ha : Q a running) :
    Runs h running (pure a : Prog α) Q := by
  rintro w rfl b hb
  cases hb
  exact ha

theorem Runs.fail {e : Fault} {Q : α → (ℕ → Bool) → Prop} :
    Runs h running (.fail e : Prog α) Q :=
  fun _ _ _ hb => nomatch hb

theorem Runs.perform {i : Call} {Q : i.Answer → (ℕ → Bool) → Prop}
    (hi : ∀ answer, Q answer (i.track running)) :
    Runs h running (.perform i : Prog i.Answer) Q := by
  rintro w rfl b hb
  exact hi b

theorem Runs.ite {c : Prop} [Decidable c] {p p' : Prog α} {Q : α → (ℕ → Bool) → Prop}
    (hp : c → Runs h running p Q) (hp' : ¬c → Runs h running p' Q) :
    Runs h running (if c then p else p') Q :=
  Spec.ite hp hp'

theorem Runs.mono {p : Prog α} {Q Q' : α → (ℕ → Bool) → Prop} (hp : Runs h running p Q)
    (hQ : ∀ a running', Q a running' → Q' a running') : Runs h running p Q' :=
  Spec.weaken hp (fun _ hw => hw) fun _ w hw a ha => hQ a w.2 (hw a ha)

/-! ## The invariant -/

/-- Exactly the functions of `P` run, and exactly their endpoints for a speed are noted. -/
structure Noted (D : Device) (high : Bool) (P : ℕ → Prop) (s : Ctl) (running : ℕ → Bool) :
    Prop where
  running : ∀ f, running f = true ↔ P f
  endpoints : ∀ f b, s.endpoints f b = true ↔
    P f ∧ ∃ ds, speedDescriptors D.fns high f = some ds ∧ b ∈ endpointBits ds

/-- The functions with an interface of the current configuration. -/
def Ctl.Current (s : Ctl) (f : ℕ) : Prop := ∃ c, s.config = some c ∧ f ∈ c.interface

/-- What is known of a device that was built. -/
def Device.Sound (D : Device) : Prop := ∀ c ∈ D.configs, c.Sound D.fns

/-- No configuration covers up for a function that failed. -/
def Device.Owned (D : Device) : Prop := ∀ c ∈ D.configs, c.Owned

/-- The current configuration is one of the device, and if none of these covers up, exactly its
functions run. -/
structure Fits (D : Device) (s : Ctl) (running : ℕ → Bool) : Prop where
  config : ∀ c, s.config = some c → c ∈ D.configs
  noted : D.Owned → ∃ high, Noted D high s.Current s running

theorem runs_disableAll (fs : List ℕ) {s : Ctl} (hfs : ∀ f ∈ fs, (D.fns f).Usable) :
    Runs h running (disableAll D fs s) fun s' running' => s'.config = s.config ∧
      (∀ f, running' f = true ↔ running f = true ∧ f ∉ fs) ∧
      ∀ f b, s'.endpoints f b = true ↔ s.endpoints f b = true ∧ f ∉ fs := by
  induction fs generalizing s running with
  | nil => exact .pure ⟨rfl, by simp, by simp⟩
  | cons f fs ih =>
    rw [disableAll, if_pos (hfs f List.mem_cons_self).2]
    refine (Runs.perform (Q := fun _ r => r = Call.track running (.disable f))
      fun _ => rfl).bind ?_
    rintro - running' rfl
    refine (ih fun f' hf' => hfs f' (List.mem_cons_of_mem f hf')).mono ?_
    rintro s' running' ⟨hconfig, hrunning, hendpoints⟩
    refine ⟨hconfig, fun f' => ?_, fun f' b => ?_⟩
    · rw [hrunning, List.mem_cons, not_or]
      by_cases hf' : f' = f
      · simp [Call.track, hf']
      · simp [Call.track, hf']
    · rw [hendpoints, List.mem_cons, not_or]
      by_cases hf' : f' = f
      · simp [Ctl.clear, hf']
      · simp [Ctl.clear, hf']

/-- After `reset_config` no function runs. -/
theorem runs_resetConfig (hD : D.Sound) {P : ℕ → Prop} {s : Ctl} {c : Configuration}
    (hc : s.config = some c) (hmem : c ∈ D.configs) (hP : D.Owned → ∀ f, P f → f ∈ c.functions)
    (hs : D.Owned → ∃ high, Noted D high P s running) :
    Runs h running (resetConfig D s) fun s' running' => s'.config = none ∧ Fits D s' running' := by
  rw [resetConfig, hc]
  refine (runs_disableAll c.functions fun f hf => (hD c hmem).usable f (.inl hf)).bind ?_
  rintro s' running' ⟨-, hrunning, hendpoints⟩
  refine .pure ⟨rfl, nofun, fun hown => ?_⟩
  obtain ⟨high, hnoted⟩ := hs hown
  refine ⟨high, fun f => ?_, fun f b => ?_⟩
  · rw [hrunning, hnoted.running]
    constructor
    · exact fun h => absurd (hP hown f h.1) h.2
    · rintro ⟨c', hc', -⟩
      cases hc'
  · change s'.endpoints f b = true ↔ _
    rw [hendpoints, hnoted.endpoints]
    constructor
    · exact fun h => absurd (hP hown f h.1.1) h.2
    · rintro ⟨⟨c', hc', -⟩, -⟩
      cases hc'

theorem Noted.note {high : Bool} {started : List ℕ} {s : Ctl} {f : ℕ} {ds : List Descriptor}
    (hs : Noted D high (· ∈ started) s running) (hds : speedDescriptors D.fns high f = some ds)
    (intf alt : ℕ) :
    Noted D high (· ∈ started ++ [f]) (s.note f ds) (Call.track running (.setAlt f intf alt)) := by
  refine ⟨fun f' => ?_, fun f' b => ?_⟩
  · by_cases hf' : f' = f
    · simp [Call.track, hf']
    · simp [Call.track, hf', hs.running]
  · by_cases hf' : f' = f
    · subst hf'
      simp only [Ctl.note, if_true, Bool.or_eq_true, List.contains_iff_mem, hs.endpoints]
      constructor
      · rintro (⟨-, hds'⟩ | hb)
        · exact ⟨by simp, hds'⟩
        · exact ⟨by simp, ds, hds, hb⟩
      · rintro ⟨-, ds', hds', hb⟩
        rw [hds] at hds'
        cases hds'
        exact .inr hb
    · simp [Ctl.note, hf', hs.endpoints]

theorem runs_setAlt {f : ℕ} (hf : (D.fns f).Usable) (intf alt : ℕ) :
    Runs h running (setAlt D f intf alt) fun _ running' =>
      running' = Call.track running (.setAlt f intf alt) := by
  rw [setAlt, if_pos hf.1]
  exact Runs.perform fun _ => rfl

/-- **The interfaces of a configuration are started**, or it is left again. -/
theorem runs_startInterfaces (hD : D.Sound) {c : Configuration} (hmem : c ∈ D.configs)
    (fs : List ℕ) (tmp : ℕ) (result : ℤ) {started : List ℕ} {s : Ctl}
    (hfs : started ++ fs = c.interface) (hc : s.config = some c)
    (hs : D.Owned → Noted D (g.speed == .high) (· ∈ started) s running) :
    Runs h running (startInterfaces D g tmp fs result s) fun r running' =>
      Fits D r.2 running' := by
  induction fs generalizing tmp result started s running with
  | nil =>
    rw [List.append_nil] at hfs
    subst hfs
    refine .pure ⟨fun c' hc' => ?_, fun hown => ⟨g.speed == .high, fun f => ?_, fun f b => ?_⟩⟩
    · rw [hc] at hc'
      cases hc'
      exact hmem
    · rw [(hs hown).running, Ctl.Current, hc]
      simp
    · rw [(hs hown).endpoints, Ctl.Current, hc]
      simp
  | cons f fs ih =>
    have husable : (D.fns f).Usable := by
      refine (hD c hmem).usable f (.inr ?_)
      rw [← hfs]
      simp
    rw [startInterfaces]
    cases hds : speedDescriptors D.fns (g.speed == .high) f with
    | none => exact .fail
    | some ds =>
      have hnote := fun hown => (hs hown).note hds tmp 0
      refine (runs_setAlt husable tmp 0).bind ?_
      rintro result' running' rfl
      refine .ite (fun _ => ?_) fun _ => ?_
      · have hc' : (s.note f ds).config = some c := hc
        refine (runs_resetConfig hD hc' hmem (fun hown f' hf' => ?_)
          fun hown => ⟨_, hnote hown⟩).bind ?_
        · refine hown c hmem f' ?_
          rw [← hfs]
          simp only [List.mem_append, List.mem_cons] at hf' ⊢
          tauto
        · exact fun s' running' hs' => .pure hs'.2
      · have hdelay : ((s.note f ds).delay result').config = some c ∧
            ((s.note f ds).delay result').endpoints = (s.note f ds).endpoints := by
          rw [Ctl.delay]
          split_ifs
          · exact ⟨hc, rfl⟩
          · exact ⟨hc, rfl⟩
        refine ih (tmp + 1) result' (by simpa using hfs) hdelay.1 fun hown =>
          ⟨(hnote hown).running, ?_⟩
        rw [hdelay.2]
        exact (hnote hown).endpoints

theorem runs_setConfigDone (power : ℕ) (result : ℤ) {s : Ctl} (hs : Fits D s running) :
    Runs h running (setConfigDone power result s) fun r running' => Fits D r.2 running' := by
  refine (Runs.perform (Q := fun _ r => r = running) fun _ => rfl).bind ?_
  rintro - running' rfl
  exact .pure hs

theorem Fits.none {s : Ctl} (hs : Fits D s running) (hc : s.config = none) (hown : D.Owned)
    (high : Bool) (c : Configuration) :
    Noted D high (· ∈ ([] : List ℕ)) { s with config := some c } running := by
  obtain ⟨high', hnoted⟩ := hs.noted hown
  have hno : ∀ f, ¬s.Current f := by
    rintro f ⟨c', hc', -⟩
    rw [hc] at hc'
    cases hc'
  refine ⟨fun f => ?_, fun f b => ?_⟩
  · rw [hnoted.running]
    simp [hno f]
  · change s.endpoints f b = true ↔ _
    rw [hnoted.endpoints]
    simp [hno f]

theorem runs_leaveConfig (hD : D.Sound) {s : Ctl} (hs : Fits D s running) :
    Runs h running (leaveConfig D s) fun s' running' =>
      s'.config = none ∧ Fits D s' running' := by
  rw [leaveConfig]
  cases hc : s.config with
  | none => exact .pure ⟨hc, hs⟩
  | some c =>
    have hmem := hs.config c hc
    refine runs_resetConfig hD hc hmem (fun hown f hf => ?_) hs.noted
    obtain ⟨c', hc', hf⟩ := hf
    rw [hc] at hc'
    cases hc'
    exact hown c hmem f hf

theorem runs_setConfig (hD : D.Sound) (number : ℕ) {s : Ctl} (hs : Fits D s running) :
    Runs h running (setConfig D g number s) fun r running' => Fits D r.2 running' := by
  refine (runs_leaveConfig hD hs).bind ?_
  rintro s' running' ⟨hc, hs'⟩
  refine .ite (fun _ => runs_setConfigDone _ _ hs') fun _ => ?_
  cases hfind : D.configs.find? fun c => c.bConfigurationValue.toNat == number with
  | none => exact runs_setConfigDone _ _ hs'
  | some c =>
    have hstart := runs_startInterfaces (h := h) g hD (List.mem_of_find?_eq_some hfind)
      c.interface 0 0 (List.nil_append _) rfl fun hown => hs'.none hc hown _ c
    refine hstart.bind ?_
    intro r running'' hr
    exact runs_setConfigDone _ _ hr

/-! ## Every entry point -/

theorem Fits.congr {s s' : Ctl} (hs : Fits D s running) (hconfig : s'.config = s.config)
    (hendpoints : s'.endpoints = s.endpoints) : Fits D s' running := by
  refine ⟨fun c hc => hs.config c (hconfig ▸ hc), fun hown => ?_⟩
  obtain ⟨high, hnoted⟩ := hs.noted hown
  refine ⟨high, fun f => ?_, fun f b => ?_⟩
  · rw [hnoted.running, Ctl.Current, Ctl.Current, hconfig]
  · rw [hendpoints, hnoted.endpoints, Ctl.Current, Ctl.Current, hconfig]

theorem Fits.delay {s : Ctl} (hs : Fits D s running) (result : ℤ) :
    Fits D (s.delay result) running := by
  rw [Ctl.delay]
  split_ifs
  · exact hs.congr rfl rfl
  · exact hs

theorem Fits.setAlt {s : Ctl} (hs : Fits D s running) {f : ℕ} (hf : s.Current f) (intf alt : ℕ) :
    Fits D s (Call.track running (.setAlt f intf alt)) := by
  refine ⟨hs.config, fun hown => ?_⟩
  obtain ⟨high, hnoted⟩ := hs.noted hown
  have hsame : Call.track running (.setAlt f intf alt) = running := by
    funext f'
    by_cases hf' : f' = f
    · rw [hf', (hnoted.running f).mpr hf]
      simp [Call.track]
    · simp [Call.track, hf']
  rw [hsame]
  exact ⟨high, hnoted⟩

theorem Ctl.current_of_interfaceOf {s : Ctl} {ctrl : CtrlRequest} {f : ℕ}
    (hf : s.interfaceOf ctrl = some f) : s.Current f := by
  obtain ⟨c, hc, hget⟩ := Option.bind_eq_some_iff.mp hf
  exact ⟨c, hc, List.mem_of_getElem? hget⟩

theorem runs_quiet {i : Call} {f : i.Answer → Prog β} {Q : β → (ℕ → Bool) → Prop}
    (hi : i.track running = running) (hf : ∀ answer, Runs h running (f answer) Q) :
    Runs h running (Driver.perform i >>= f) Q := by
  refine (Runs.perform (Q := fun _ r => r = running) fun _ => hi).bind ?_
  rintro answer running' rfl
  exact hf answer

theorem runs_respond (wLength : ℕ) (value : ℤ) {s : Ctl} (hs : Fits D s running) :
    Runs h running (respond wLength value s) fun r running' => Fits D r.2 running' :=
  .ite (fun _ => runs_quiet rfl fun _ => .pure hs) fun _ => .pure hs

theorem runs_configRequest {f : ℤ → Prog β} {Q : β → (ℕ → Bool) → Prop} {s : Ctl}
    (hf : ∀ value, Runs h running (f value) Q) : Runs h running (configRequest? s >>= f) Q := by
  rw [configRequest?]
  cases s.config with
  | none => exact hf _
  | some c =>
    dsimp only
    cases c.setup with
    | false => exact hf _
    | true => exact runs_quiet rfl hf

theorem runs_unknown (ctrl : CtrlRequest) {s : Ctl} (hs : Fits D s running) :
    Runs h running (unknown D ctrl s) fun r running' => Fits D r.2 running' := by
  rw [unknown]
  cases recipient ctrl s with
  | error e => exact .fail
  | ok f =>
    cases f with
    | none => exact runs_configRequest fun _ => .pure hs
    | some f =>
      dsimp only
      cases (D.fns f).setup with
      | false => exact runs_configRequest fun _ => .pure hs
      | true => exact runs_quiet rfl fun _ => .pure hs

theorem runs_compositeSetup (hD : D.Sound) (ctrl : CtrlRequest) {s : Ctl}
    (hs : Fits D s running) :
    Runs h running (compositeSetup D g ctrl s) fun r running' => Fits D r.2 running' := by
  have hput : ∀ data, Fits D (s.put data) running := fun data => hs.congr rfl rfl
  rw [compositeSetup]
  refine .ite (fun _ => ?_) fun _ => .ite (fun _ => ?_) fun _ => .ite (fun _ => ?_) fun _ =>
    .ite (fun _ => ?_) fun _ => .ite (fun _ => ?_) fun _ => runs_unknown ctrl hs
  · -- GET_DESCRIPTOR
    cases getDescriptor D g ctrl with
    | ok r => exact runs_respond _ _ (hput r.1)
    | error e => exact runs_respond _ _ hs
  · -- SET_CONFIGURATION
    exact (runs_setConfig g hD _ hs).bind fun r running' hr => runs_respond _ _ hr
  · -- GET_CONFIGURATION
    exact runs_respond _ _ (hput _)
  · -- SET_INTERFACE
    cases hf : s.interfaceOf ctrl with
    | none => exact runs_respond _ _ hs
    | some f =>
      have hcurrent := Ctl.current_of_interfaceOf hf
      have husable : (D.fns f).Usable := by
        obtain ⟨c, hc, hmem⟩ := hcurrent
        exact (hD c (hs.config c hc)).usable f (.inr hmem)
      refine .ite (fun _ => runs_respond _ _ hs) fun _ => (runs_setAlt husable _ _).bind ?_
      rintro value running' rfl
      exact runs_respond _ _ ((hs.setAlt hcurrent _ _).delay value)
  · -- GET_INTERFACE
    have hreply : ∀ value : ℤ, Runs h running
        (if value < 0 then respond ctrl.wLength.toNat value s
          else respond ctrl.wLength.toNat (min ctrl.wLength.toNat 1 : ℕ)
            (s.put [UInt8.ofNat value.toNat])) fun r running' => Fits D r.2 running' :=
      fun value => .ite (fun _ => runs_respond _ _ hs) fun _ => runs_respond _ _ (hput _)
    cases s.interfaceOf ctrl with
    | none => exact runs_respond _ _ hs
    | some f =>
      dsimp only
      cases (D.fns f).getAlt with
      | false => exact hreply 0
      | true => exact runs_quiet rfl hreply

theorem runs_callEach {has : ℕ → Bool} {call : ℕ → Prog Unit} {f : Unit → Prog β}
    {Q : β → (ℕ → Bool) → Prop}
    (hcall : ∀ g (k : Unit → Prog β), Runs h running (k ()) Q → Runs h running (call g >>= k) Q)
    (fs : List ℕ) (hf : Runs h running (f ()) Q) :
    Runs h running (callEach has call fs >>= f) Q := by
  induction fs with
  | nil => exact hf
  | cons g fs ih =>
    rw [callEach]
    cases has g with
    | false => exact ih
    | true =>
      rw [if_pos rfl, bind_assoc]
      exact hcall g _ ih

theorem runs_act (hD : D.Sound) (a : Act) {s : Ctl} (hs : Fits D s running) :
    Runs h running (a.prog D s) (Fits D) := by
  cases a with
  | setup g ctrl => exact (runs_compositeSetup g hD ctrl hs).bind fun r running' hr => .pure hr
  | disconnect => exact (runs_leaveConfig hD hs).mono fun s' running' hs' => hs'.2
  | setupContinue =>
    refine .ite (fun _ => .pure hs) fun _ => ?_
    have hs' : Fits D { s with delayedStatus := s.delayedStatus - 1 } running := hs.congr rfl rfl
    dsimp only
    split_ifs
    · exact runs_quiet rfl fun _ => .pure hs'
    · exact .pure hs'
  | suspend =>
    refine runs_callEach (fun f k hk => runs_quiet rfl fun _ => hk) s.functions ?_
    exact runs_quiet rfl fun _ => .pure (hs.congr rfl rfl)
  | resume =>
    have hend : Runs h running (pure { s with suspended := false }) (Fits D) :=
      .pure (hs.congr rfl rfl)
    refine runs_callEach (fun f k hk => runs_quiet rfl fun _ => hk) s.functions ?_
    rw [drawAgain]
    split
    · exact hend
    · exact runs_quiet rfl fun _ => hend

theorem actStep_fits (hD : D.Sound) {t t' : Ctl × σ × (ℕ → Bool)} {a : Act}
    (ht : Fits D t.1 t.2.2) (hact : actStep D h t a = some t') : Fits D t'.1 t'.2.2 := by
  have hruns := runs_act (h := h) hD a ht t.2 rfl
  rw [actStep] at hact
  split at hact
  next c w hw =>
    cases hact
    rw [hw] at hruns
    exact hruns c rfl
  next => cases hact

theorem exec_fits (hD : D.Sound) {w : σ} {acts : List Act} {t : Ctl × σ × (ℕ → Bool)}
    (hrun : Lts.exec (actStep D h) (.init, w, fun _ => false) acts = some t) :
    Fits D t.1 t.2.2 := by
  have hinit : Fits D .init fun _ => false := by
    refine ⟨nofun, fun _ => ⟨false, fun f => ?_, fun f b => ?_⟩⟩
    · simp [Ctl.Current, Ctl.init]
    · simp [Ctl.Current, Ctl.init]
  exact Lts.exec_inv (I := fun t : Ctl × σ × (ℕ → Bool) => Fits D t.1 t.2.2)
    (fun t a t' ht h => actStep_fits hD ht h) hinit hrun

theorem Device.sound_of_build {l : List DeviceAsk} (hD : D.configs = (build D.fns l).configs) :
    D.Sound := by
  rw [Device.Sound, hD]
  exact (build_inv D.fns l).sound

theorem Device.owned_of_build {l : List DeviceAsk} (hl : ∀ a ∈ l, a.PassesOn)
    (hD : D.configs = (build D.fns l).configs) : D.Owned := by
  rw [Device.Owned, hD]
  exact (build_inv D.fns l).owned hl

/-- Functions that answer zero to everything. -/
def yes : Hardware Call Call.Answer Unit
  | .setAlt .., _ | .getAlt .., _ | .setup _, _ | .configSetup _, _ | .epQueue .., _ =>
    ((0 : ℤ), ())
  | .disable _, _ | .vbusDraw _, _ | .suspend _, _ | .resume _, _ => ((), ())

/-- A function with one endpoint at full speed. -/
def fullSpeedFunction : UsbFunction :=
  { plainFunction with descriptors := some [⟨[7, 5, 0x81, 2, 64, 0, 0], rfl, by decide⟩] }

/-- A device with one configuration and one function, which has one interface. -/
def fullSpeedAsks : List DeviceAsk :=
  [.addConfig plainConfig (some ⟨[.addFunction 7 ⟨[.interfaceId], 0⟩], 0⟩)]

/-- A device with such a function in its only configuration. -/
def fullSpeedDevice : Device :=
  ⟨fun _ => fullSpeedFunction, (build (fun _ => fullSpeedFunction) fullSpeedAsks).configs, ⟨[], []⟩,
    [], 100⟩

/-- The host chooses configuration 1. -/
def chooseFirst : CtrlRequest := ⟨0, usbReqSetConfiguration, 1, 0, 0⟩

/-- The host chooses the first configuration. -/
def chooseOnce : List Act := [.setup ⟨false, false, .full⟩ chooseFirst]

end LddExample.Composite
