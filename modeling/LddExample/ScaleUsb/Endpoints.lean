import LddExample.ScaleUsb.Bind
import LddExample.ScaleUsb.Tx

/-!
# The endpoints of the requests

A request belongs to the endpoint that `usb_ep_alloc_request` was called with. `scale_bind`
allocates the pools from the endpoints it chose first and then stores others in `dev->in_ep` and
`dev->out_ep`, which all later calls name.

* `Usb`: the device after a successful `scale_bind`, with `passed`, the requests given to
  `usb_ep_queue` or `scale_req_free` so far, as history.
* `Paired`: such a request goes with its own endpoint.
* `BindDev.fillPool_induction`: induction along the loop that fills a pool.
* `BindDev.BulkInv`: what is kept by all that `adb_create_bulk_endpoints` does.
* `BindDev.Unset`, **`BindDev.unset_of_scaleBind`**: the last pair of test endpoints is null.
* `BindDev.Chosen`: the pools belong to two endpoints, and `testin_ep[0]` and `testout_ep[0]` are
  others.
* `BindDev.Apart`: no request of the pools goes with the endpoint that the device names for it.
* `Usb.unbindDev_start`: the runs start with the lists that `scale_bind` has left.
* `NoPool`: the step passes no request of the pools.
* **`paired_iff_noPool`**: the requests of a run go with their own endpoints exactly when the pools
  are not used in it.
-/

namespace LddExample.ScaleUsb

/-! ## Runs after `scale_bind` -/

/-- The device, its two sides and the history. -/
structure Usb where
  dev : BindDev
  tx : Tx
  rx : Rx
  /-- `scale_unbind` was not called yet -/
  bound : Bool
  passed : List (ReqName × Option ℕ)

/-- What can happen to the device. -/
inductive UsbAct
  | tx (a : TxAct)
  | rx (a : RxAct)
  /-- `scale_setup` queues its response -/
  | setup
  /-- `scale_unbind` -/
  | unbind

namespace Usb

/-- The device after `scale_bind`, with the endpoints as they are then. -/
def start (dev : BindDev) (enabled : Bool) : Usb where
  dev := dev
  tx := .bind enabled
  rx := .bind enabled
  bound := true
  passed := []

/-- The lists as `scale_unbind` finds them. -/
def unbindDev (u : Usb) : BindDev :=
  { u.dev with
    txReqs := some (u.tx.txReqs.map .tx)
    rxReqs := some (u.rx.rxReqs.map .rx)
    rxBuffers := some (u.rx.rxBuffers.map .rx)
    currentRxReq := u.rx.currentRx.req.map .rx }

/-- The requests that a step gives to `usb_ep_queue` or `scale_req_free`, with the endpoint it
names: `scale_write`, `setup_rx_reqs`, `scale_setup` and `scale_unbind`. -/
def passes (u : Usb) : UsbAct → List (ReqName × Option ℕ)
  | .tx (.queue _) =>
    match u.tx.pc with
    | .queue _ r => [(.tx r, u.dev.inEp)]
    | _ => []
  | .rx (.queue _) =>
    match u.rx.pc, u.rx.rxReqs with
    | .setup _, r :: _ => [(.rx r, u.dev.outEp)]
    | _, _ => []
  | .setup => u.dev.req.toList.map (·, some ep0)
  | .unbind => u.unbindDev.unbindFrees
  | .tx _ | .rx _ => []

end Usb

/-- **One step.** -/
def usbStep (maxpacket : ℕ) (u : Usb) (a : UsbAct) : Option Usb :=
  if u.bound then
    let u' := { u with passed := u.passed ++ u.passes a }
    match a with
    | .tx b => (txStep maxpacket u.tx b).map fun t => { u' with tx := t }
    | .rx b => (rxStep u.rx b).map fun t => { u' with rx := t }
    | .setup => some u'
    | .unbind => some { u' with bound := false }
  else none

/-- The request goes with the endpoint it was allocated from. -/
def Paired (s : BindDev) (p : ReqName × Option ℕ) : Prop :=
  ∃ ep, p.2 = some ep ∧ (p.1, ep) ∈ s.allocated

/-- The step leaves the pools alone: neither `scale_write` nor `setup_rx_reqs` calls `usb_ep_queue`,
and `scale_unbind` finds no request to free but `dev->req`. -/
def NoPool (u : Usb) : UsbAct → Prop
  | .tx (.queue _) | .rx (.queue _) => False
  | .unbind =>
    u.tx.txReqs = [] ∧ u.rx.currentRx.req = none ∧ u.rx.rxReqs = [] ∧ u.rx.rxBuffers = []
  | .tx _ | .rx _ | .setup => True

/-! ## The pools and `adb_create_bulk_endpoints` -/

namespace BindDev

variable {f : Faults} {s s' : BindDev}

/-- **Induction along the loop that fills a pool**; `L l` is known with `l` on the list. -/
theorem fillPool_induction {L : List ReqName → BindDev → Prop} {name : ℕ → ReqName}
    {add : BindDev → ReqName → BindDev} {drain : BindDev → BindDev} {ep n i : ℕ}
    (hnew : ∀ s l i, L l s → L l (s.reqNew f ep (name i)).1)
    (hadd : ∀ s l r, L l s → L (r :: l) (add s r)) {l : List ReqName} (h : L l s)
    (hfill : fillPool f ep name add drain n i s = (s', true)) :
    L ((List.range' i n).reverse.map name ++ l) s' := by
  induction n generalizing i s l with
  | zero =>
    cases hfill
    exact h
  | succ n ih =>
    have hreq := hnew s l i h
    rw [fillPool, scaleReqAlloc] at hfill
    cases heq : s.reqNew f ep (name i) with
    | mk t ok =>
      rw [heq] at hreq hfill
      cases ok with
      | false => cases hfill
      | true =>
        rw [List.range'_succ, List.reverse_cons, List.map_append, List.append_assoc]
        exact ih (hadd t l (name i) hreq) hfill

/-- `I` is kept by all that `adb_create_bulk_endpoints` does; `Fresh` is known of the endpoints that
`usb_ep_autoconfig` returns. -/
structure BulkInv (f : Faults) (I : BindDev → Prop) (Fresh : ℕ → Prop) : Prop where
  autoconfig : ∀ s, I s →
    I (s.usbEpAutoconfig f).1 ∧ ∀ ep, (s.usbEpAutoconfig f).2 = some ep → Fresh ep
  testin : ∀ s index ep, index < bulkCalls → I s → Fresh ep →
    I { s with testinEp := fun i => if i = index then some ep else s.testinEp i }
  testout : ∀ s index ep, index < bulkCalls → I s → Fresh ep →
    I { s with testoutEp := fun i => if i = index then some ep else s.testoutEp i }
  newRxReq : ∀ s ep index, I s → I (s.reqNew f ep (.rxReq index)).1
  newTxIdle : ∀ s ep index i, I s → I (s.reqNew f ep (.txIdle index i)).1
  rxReq : ∀ s r, I s → I { s with rxReq := r }
  txIdle : ∀ s l, I s → I { s with txIdle := l }

variable {I : BindDev → Prop} {Fresh : ℕ → Prop}

theorem BulkInv.fillTxIdle (hI : BulkInv f I Fresh) {index ep n i : ℕ} (h : I s) :
    I (BindDev.fillTxIdle f index ep n i s).1 := by
  induction n generalizing i s with
  | zero => exact h
  | succ n ih =>
    have hnew := hI.newTxIdle s ep index i h
    rw [BindDev.fillTxIdle, scaleRequestNew]
    cases hreq : s.reqNew f ep (.txIdle index i) with
    | mk t ok =>
      rw [hreq] at hnew
      cases ok with
      | false => exact hnew
      | true => exact ih (hI.txIdle t _ hnew)

theorem BulkInv.adbCreateBulkEndpoints (hI : BulkInv f I Fresh) {index : ℕ}
    (hindex : index < bulkCalls) (h : I s) : I (s.adbCreateBulkEndpoints f index).1 := by
  have hin := hI.autoconfig s h
  rw [BindDev.adbCreateBulkEndpoints]
  split
  next s₁ heq =>
    rw [heq] at hin
    exact hin.1
  next s₁ inEp heq =>
    rw [heq] at hin
    have h₂ := hI.testin s₁ index inEp hindex hin.1 (hin.2 inEp rfl)
    have hout := hI.autoconfig _ h₂
    dsimp only
    split
    next s₃ heq =>
      rw [heq] at hout
      exact hout.1
    next s₃ outEp heq =>
      rw [heq] at hout
      have h₄ := hI.testout s₃ index outEp hindex hout.1 (hout.2 outEp rfl)
      have h₅ := hI.newRxReq _ outEp index h₄
      dsimp only [scaleRequestNew]
      split
      next s₅ heq =>
        rw [heq] at h₅
        exact h₅
      next s₅ heq =>
        rw [heq] at h₅
        exact hI.fillTxIdle (hI.rxReq s₅ _ h₅)

/-- The device after the three calls of `adb_create_bulk_endpoints`. -/
def bulkEndpoints (s : BindDev) (f : Faults) : BindDev :=
  (((s.adbCreateBulkEndpoints f 0).1.adbCreateBulkEndpoints f 1).1.adbCreateBulkEndpoints f 2).1

theorem BulkInv.bulkEndpoints (hI : BulkInv f I Fresh) (h : I s) : I (s.bulkEndpoints f) := by
  have h₁ := hI.adbCreateBulkEndpoints (by decide : 0 < bulkCalls) h
  have h₂ := hI.adbCreateBulkEndpoints (by decide : 1 < bulkCalls) h₁
  exact hI.adbCreateBulkEndpoints (by decide : 2 < bulkCalls) h₂

end BindDev

/-! ## The endpoints after `scale_bind` -/

/-- The pools belong to `inEp₀` and `outEp₀`, and the first test endpoints are others. -/
structure BindDev.Chosen (inEp₀ outEp₀ : ℕ) (s : BindDev) : Prop where
  control : (.control, ep0) ∈ s.allocated
  tx : ∀ i ep, (.tx i, ep) ∈ s.allocated → ep = inEp₀
  rx : ∀ i ep, (.rx i, ep) ∈ s.allocated → ep = outEp₀
  req : s.req = some .control
  claimedIn : inEp₀ ∈ s.claimed
  claimedOut : outEp₀ ∈ s.claimed
  testin : s.testinEp 0 ≠ some inEp₀
  testout : s.testoutEp 0 ≠ some outEp₀

namespace BindDev

variable {f : Faults} {s s' : BindDev} {inEp₀ outEp₀ : ℕ}

/-- The endpoint of a pool is given to the requests of the pool. -/
def PoolEp (inEp₀ outEp₀ : ℕ) (r : ReqName) (ep : ℕ) : Prop :=
  match r with
  | .tx _ => ep = inEp₀
  | .rx _ => ep = outEp₀
  | .control | .rxReq _ | .txIdle _ _ => True

theorem Chosen.alloc (h : s.Chosen inEp₀ outEp₀) {r : ReqName} {ep : ℕ}
    (hep : PoolEp inEp₀ outEp₀ r ep) (halloc : s'.allocated = s.allocated ++ [(r, ep)])
    (hreq : s'.req = s.req) (hclaimed : s'.claimed = s.claimed) (hin : s'.testinEp = s.testinEp)
    (hout : s'.testoutEp = s.testoutEp) : s'.Chosen inEp₀ outEp₀ where
  control := by
    rw [halloc]
    exact List.mem_append_left _ h.control
  tx := by
    intro i ep' hmem
    rw [halloc] at hmem
    obtain hmem | hmem := List.mem_append.1 hmem
    · exact h.tx i ep' hmem
    · cases List.mem_singleton.1 hmem
      exact hep
  rx := by
    intro i ep' hmem
    rw [halloc] at hmem
    obtain hmem | hmem := List.mem_append.1 hmem
    · exact h.rx i ep' hmem
    · cases List.mem_singleton.1 hmem
      exact hep
  req := hreq.trans h.req
  claimedIn := hclaimed ▸ h.claimedIn
  claimedOut := hclaimed ▸ h.claimedOut
  testin := hin ▸ h.testin
  testout := hout ▸ h.testout

theorem Chosen.reqNew (h : s.Chosen inEp₀ outEp₀) (f : Faults) {r : ReqName} {ep : ℕ}
    (hep : PoolEp inEp₀ outEp₀ r ep) : (s.reqNew f ep r).1.Chosen inEp₀ outEp₀ := by
  rw [BindDev.reqNew]
  split_ifs
  · exact h
  · exact h.alloc hep rfl rfl rfl rfl rfl
  · exact h.alloc hep rfl rfl rfl rfl rfl

theorem Chosen.congr (h : s.Chosen inEp₀ outEp₀) (halloc : s'.allocated = s.allocated)
    (hreq : s'.req = s.req) (hclaimed : s'.claimed = s.claimed) (hin : s'.testinEp = s.testinEp)
    (hout : s'.testoutEp = s.testoutEp) : s'.Chosen inEp₀ outEp₀ := by
  obtain ⟨h₁, h₂, h₃, h₄, h₅, h₆, h₇, h₈⟩ := h
  exact ⟨halloc ▸ h₁, halloc ▸ h₂, halloc ▸ h₃, hreq ▸ h₄, hclaimed ▸ h₅, hclaimed ▸ h₆, hin ▸ h₇,
    hout ▸ h₈⟩

/-- `usb_ep_autoconfig` does not return an endpoint whose `driver_data` is set. -/
def Unclaimed (f : Faults) : Prop :=
  ∀ i claimed ep, f.autoconfig i claimed = some ep → ep ∉ claimed

/-- What `usb_ep_autoconfig` returns is none of the first two endpoints. -/
theorem Chosen.autoconfig (h : s.Chosen inEp₀ outEp₀) (hf : Unclaimed f) :
    (s.usbEpAutoconfig f).1.Chosen inEp₀ outEp₀ ∧
      ∀ ep, (s.usbEpAutoconfig f).2 = some ep → ep ≠ inEp₀ ∧ ep ≠ outEp₀ := by
  refine ⟨?_, fun ep hgot => ?_⟩
  · obtain ⟨h₁, h₂, h₃, h₄, h₅, h₆, h₇, h₈⟩ := h
    exact ⟨h₁, h₂, h₃, h₄, List.mem_append_right _ h₅, List.mem_append_right _ h₆, h₇, h₈⟩
  · have hnot := hf _ _ _ hgot
    exact ⟨fun heq => hnot (heq ▸ h.claimedIn), fun heq => hnot (heq ▸ h.claimedOut)⟩

theorem chosen_bulkInv (hf : Unclaimed f) (inEp₀ outEp₀ : ℕ) :
    BulkInv f (Chosen inEp₀ outEp₀) fun ep => ep ≠ inEp₀ ∧ ep ≠ outEp₀ where
  autoconfig := fun s h => h.autoconfig hf
  testin := by
    intro s index ep _ h hep
    refine ⟨h.control, h.tx, h.rx, h.req, h.claimedIn, h.claimedOut, ?_, h.testout⟩
    dsimp only
    split_ifs
    · intro heq
      exact hep.1 (Option.some.inj heq)
    · exact h.testin
  testout := by
    intro s index ep _ h hep
    refine ⟨h.control, h.tx, h.rx, h.req, h.claimedIn, h.claimedOut, h.testin, ?_⟩
    dsimp only
    split_ifs
    · intro heq
      exact hep.2 (Option.some.inj heq)
    · exact h.testout
  newRxReq := fun s ep index h => h.reqNew f (trivial : PoolEp inEp₀ outEp₀ (.rxReq index) ep)
  newTxIdle := fun s ep index i h =>
    h.reqNew f (trivial : PoolEp inEp₀ outEp₀ (.txIdle index i) ep)
  rxReq := fun s r h => h.congr rfl rfl rfl rfl rfl
  txIdle := fun s l h => h.congr rfl rfl rfl rfl rfl

theorem bindPools_eq_ret {qlen inEp outEp : ℕ} (hbind : s.bindPools f qlen inEp outEp = .ret s' 0) :
    ∃ s₁ s₂, s.fillTxReqs f qlen inEp = (s₁, true) ∧ s₁.fillRxReqs f qlen outEp = (s₂, true) ∧
      s₂.bindFinish f = .ret s' 0 := by
  rw [BindDev.bindPools] at hbind
  split at hbind
  next => cases hbind
  next s₁ htx =>
    split at hbind
    next => cases hbind
    next s₂ hrx => exact ⟨s₁, s₂, htx, hrx, hbind⟩

theorem bindFinish_eq_ret (hbind : s.bindFinish f = .ret s' 0) :
    s' = { s.bulkEndpoints f with
      inEp := (s.bulkEndpoints f).testinEp 0
      outEp := (s.bulkEndpoints f).testoutEp 0
      gadgetData := .scale } := by
  rw [bindFinish] at hbind
  dsimp only at hbind
  split_ifs at hbind
  cases hbind
  rfl

theorem Chosen.bindPools (h : s.Chosen inEp₀ outEp₀) (hf : Unclaimed f) {qlen : ℕ}
    (hbind : s.bindPools f qlen inEp₀ outEp₀ = .ret s' 0) :
    s'.Chosen inEp₀ outEp₀ ∧ s'.inEp = s'.testinEp 0 ∧ s'.outEp = s'.testoutEp 0 := by
  obtain ⟨s₁, s₂, htx, hrx, hfinish⟩ := bindPools_eq_ret hbind
  have h₁ : s₁.Chosen inEp₀ outEp₀ := by
    refine fillPool_induction (L := fun _ s => s.Chosen inEp₀ outEp₀) (fun _ _ i h => ?_)
      (fun _ _ _ h => ?_) (l := []) h htx
    · exact h.reqNew f (rfl : inEp₀ = inEp₀)
    · exact h.congr rfl rfl rfl rfl rfl
  have h₂ : s₂.Chosen inEp₀ outEp₀ := by
    refine fillPool_induction (L := fun _ s => s.Chosen inEp₀ outEp₀) (fun _ _ i h => ?_)
      (fun _ _ _ h => ?_) (l := []) h₁ hrx
    · exact h.reqNew f (rfl : outEp₀ = outEp₀)
    · exact h.congr rfl rfl rfl rfl rfl
  rw [bindFinish_eq_ret hfinish]
  exact ⟨((chosen_bulkInv hf inEp₀ outEp₀).bulkEndpoints h₂).congr rfl rfl rfl rfl rfl, rfl, rfl⟩

/-- The device before the pools are filled. -/
def withReq (inEp outEp : ℕ) : BindDev :=
  { init.initLists inEp outEp with
    txIdle := some []
    autoconfigs := 2
    claimed := [outEp, inEp]
    allocated := [(.control, ep0)]
    bufs := [.control]
    req := some .control }

theorem chosen_withReq (inEp outEp : ℕ) : (withReq inEp outEp).Chosen inEp outEp where
  control := List.mem_singleton.2 rfl
  tx := by
    intro i ep hmem
    cases List.mem_singleton.1 hmem
  rx := by
    intro i ep hmem
    cases List.mem_singleton.1 hmem
  req := rfl
  claimedIn := List.mem_cons_of_mem _ List.mem_cons_self
  claimedOut := List.mem_cons_self
  testin := by
    intro h
    cases h
  testout := by
    intro h
    cases h

theorem bindPools_of_bindAlloc {qlen inEp outEp : ℕ}
    (hbind : s.bindAlloc f qlen inEp outEp = .ret s' 0) :
    ({ s with
      allocated := s.allocated ++ [(.control, ep0)]
      bufs := s.bufs ++ [.control]
      req := some .control } : BindDev).bindPools f qlen inEp outEp = .ret s' 0 := by
  rw [bindAlloc, scaleReqAlloc] at hbind
  by_cases hcontrol : f.Ok .control
  · rw [reqNew_of_ok hcontrol] at hbind
    exact hbind
  · have hsnd := @reqNew_snd f s .control ep0
    cases hnew : s.reqNew f ep0 .control with
    | mk t ok =>
      rw [hnew] at hsnd hbind
      cases ok with
      | true => exact absurd (hsnd.1 rfl) hcontrol
      | false => cases hbind

theorem bindPools_of_bindEndpoints {qlen : ℕ} (hbind : init.bindEndpoints f qlen = .ret s' 0) :
    ∃ inEp outEp, (withReq inEp outEp).bindPools f qlen inEp outEp = .ret s' 0 := by
  rw [bindEndpoints] at hbind
  simp only [usbEpAutoconfig, init] at hbind
  cases hin : f.autoconfig 0 [] with
  | none =>
    rw [hin] at hbind
    cases hbind
  | some inEp =>
    simp only [hin, Option.toList_some, List.append_nil, Nat.zero_add] at hbind
    cases hout : f.autoconfig 1 [inEp] with
    | none =>
      rw [hout] at hbind
      cases hbind
    | some outEp =>
      rw [hout] at hbind
      exact ⟨inEp, outEp, bindPools_of_bindAlloc hbind⟩

theorem bindPools_of_scaleBind {qlen : ℕ} (hbind : init.scaleBind f qlen = .ret s' 0) :
    ∃ inEp outEp, (withReq inEp outEp).bindPools f qlen inEp outEp = .ret s' 0 := by
  rw [scaleBind] at hbind
  split_ifs at hbind with hcreate hadd h₀ h₁ h₂
  · cases hbind
  · have hstatus : -(f.cdevAdd : ℤ) = 0 := (BindResult.ret.inj hbind).2
    omega
  · rw [(BindResult.ret.inj hbind).2] at h₀
    cases h₀
  · rw [(BindResult.ret.inj hbind).2] at h₁
    cases h₁
  · rw [(BindResult.ret.inj hbind).2] at h₂
    cases h₂
  · exact bindPools_of_bindEndpoints hbind

/-- No request of the pools goes with the endpoint that the device names for it. -/
structure Apart (s : BindDev) : Prop where
  control : Paired s (.control, some ep0)
  req : s.req = some .control
  tx : ∀ i, ¬Paired s (.tx i, s.inEp)
  rx : ∀ i, ¬Paired s (.rx i, s.outEp)

theorem Chosen.apart (h : s.Chosen inEp₀ outEp₀) (hin : s.inEp = s.testinEp 0)
    (hout : s.outEp = s.testoutEp 0) : s.Apart where
  control := ⟨ep0, rfl, h.control⟩
  req := h.req
  tx := by
    rintro i ⟨ep, hep, hmem⟩
    apply h.testin
    rw [← hin, ← h.tx i ep hmem]
    exact hep
  rx := by
    rintro i ⟨ep, hep, hmem⟩
    apply h.testout
    rw [← hout, ← h.rx i ep hmem]
    exact hep

/-- The test endpoints that no call of `adb_create_bulk_endpoints` sets. -/
def Unset (s : BindDev) : Prop :=
  ∀ i, bulkCalls ≤ i → s.testinEp i = none ∧ s.testoutEp i = none

theorem Unset.congr (h : s.Unset) (hin : s'.testinEp = s.testinEp)
    (hout : s'.testoutEp = s.testoutEp) : s'.Unset := by
  rw [Unset, hin, hout]
  exact h

theorem Unset.reqNew (h : s.Unset) (f : Faults) (ep : ℕ) (r : ReqName) :
    (s.reqNew f ep r).1.Unset := by
  rw [BindDev.reqNew]
  split_ifs <;> exact h.congr rfl rfl

theorem unset_bulkInv (f : Faults) : BulkInv f Unset fun _ => True where
  autoconfig := fun _ h => ⟨h.congr rfl rfl, fun _ _ => trivial⟩
  testin := by
    intro s index ep hindex h _ i hi
    refine ⟨?_, (h i hi).2⟩
    dsimp only
    rw [if_neg (by omega), (h i hi).1]
  testout := by
    intro s index ep hindex h _ i hi
    refine ⟨(h i hi).1, ?_⟩
    dsimp only
    rw [if_neg (by omega), (h i hi).2]
  newRxReq := fun _ ep index h => h.reqNew f ep (.rxReq index)
  newTxIdle := fun _ ep index i h => h.reqNew f ep (.txIdle index i)
  rxReq := fun _ _ h => h.congr rfl rfl
  txIdle := fun _ _ h => h.congr rfl rfl

/-- **A successful `scale_bind` leaves the last pair of test endpoints null.** -/
theorem unset_of_scaleBind {qlen : ℕ} (hbind : init.scaleBind f qlen = .ret s' 0) : s'.Unset := by
  obtain ⟨inEp, outEp, hpools⟩ := bindPools_of_scaleBind hbind
  obtain ⟨s₁, s₂, htx, hrx, hfinish⟩ := bindPools_eq_ret hpools
  have h₀ : (withReq inEp outEp).Unset := fun _ _ => ⟨rfl, rfl⟩
  have h₁ : s₁.Unset := by
    refine fillPool_induction (L := fun _ s => s.Unset) (fun _ _ i h => ?_) (fun _ _ _ h => ?_)
      (l := []) h₀ htx
    · exact h.reqNew f inEp (.tx i)
    · exact h.congr rfl rfl
  have h₂ : s₂.Unset := by
    refine fillPool_induction (L := fun _ s => s.Unset) (fun _ _ i h => ?_) (fun _ _ _ h => ?_)
      (l := []) h₁ hrx
    · exact h.reqNew f outEp (.rx i)
    · exact h.congr rfl rfl
  rw [bindFinish_eq_ret hfinish]
  exact ((unset_bulkInv f).bulkEndpoints h₂).congr rfl rfl

/-- **After a successful `scale_bind` the pools belong to other endpoints than those in use.** -/
theorem apart_of_scaleBind (hf : Unclaimed f) {qlen : ℕ}
    (hbind : init.scaleBind f qlen = .ret s' 0) : s'.Apart := by
  obtain ⟨inEp₀, outEp₀, hpools⟩ := bindPools_of_scaleBind hbind
  obtain ⟨h, hin, hout⟩ := (chosen_withReq inEp₀ outEp₀).bindPools hf hpools
  exact h.apart hin hout

/-! ## The lists after `scale_bind` -/

/-- The lists of requests, with the free ones on `tx` and `rx`. -/
structure Lists (tx rx : List ReqName) (s : BindDev) : Prop where
  txReqs : s.txReqs = some tx
  rxReqs : s.rxReqs = some rx
  rxBuffers : s.rxBuffers = some []
  currentRxReq : s.currentRxReq = none

variable {tx rx : List ReqName}

theorem Lists.reqNew (h : s.Lists tx rx) (f : Faults) (ep : ℕ) (r : ReqName) :
    (s.reqNew f ep r).1.Lists tx rx := by
  obtain ⟨h₁, h₂, h₃, h₄⟩ := h
  rw [BindDev.reqNew]
  split_ifs
  · exact ⟨h₁, h₂, h₃, h₄⟩
  · exact ⟨h₁, h₂, h₃, h₄⟩
  · exact ⟨h₁, h₂, h₃, h₄⟩

theorem lists_bulkInv (f : Faults) (tx rx : List ReqName) :
    BulkInv f (Lists tx rx) fun _ => True where
  autoconfig := fun _ h => ⟨⟨h.1, h.2, h.3, h.4⟩, fun _ _ => trivial⟩
  testin := fun _ _ _ _ h _ => ⟨h.1, h.2, h.3, h.4⟩
  testout := fun _ _ _ _ h _ => ⟨h.1, h.2, h.3, h.4⟩
  newRxReq := fun _ ep index h => h.reqNew f ep (.rxReq index)
  newTxIdle := fun _ ep index i h => h.reqNew f ep (.txIdle index i)
  rxReq := fun _ _ h => ⟨h.1, h.2, h.3, h.4⟩
  txIdle := fun _ _ h => ⟨h.1, h.2, h.3, h.4⟩

theorem Lists.addTxReq (h : s.Lists tx rx) (r : ReqName) : (s.addTxReq r).Lists (r :: tx) rx := by
  refine ⟨?_, h.rxReqs, h.rxBuffers, h.currentRxReq⟩
  rw [BindDev.addTxReq, h.txReqs, Option.map_some]

theorem Lists.addRxReq (h : s.Lists tx rx) (r : ReqName) : (s.addRxReq r).Lists tx (r :: rx) := by
  refine ⟨h.txReqs, ?_, h.rxBuffers, h.currentRxReq⟩
  rw [BindDev.addRxReq, h.rxReqs, Option.map_some]

theorem lists_withReq (inEp outEp : ℕ) : (withReq inEp outEp).Lists [] [] :=
  ⟨rfl, rfl, rfl, rfl⟩

/-- **A successful `scale_bind` leaves both pools full.** -/
theorem lists_of_scaleBind {qlen : ℕ} (hbind : init.scaleBind f qlen = .ret s' 0) :
    s'.Lists ((List.range qlen).reverse.map .tx) ((List.range qlen).reverse.map .rx) := by
  obtain ⟨inEp, outEp, hpools⟩ := bindPools_of_scaleBind hbind
  obtain ⟨s₁, s₂, htx, hrx, hfinish⟩ := bindPools_eq_ret hpools
  have h₁ := fillPool_induction (L := fun l s => s.Lists l [])
    (fun _ _ i h => h.reqNew f inEp (.tx i)) (fun _ _ r h => h.addTxReq r)
    (lists_withReq inEp outEp) htx
  have h₂ := fillPool_induction (L := fun l s => s.Lists _ l)
    (fun _ _ i h => h.reqNew f outEp (.rx i)) (fun _ _ r h => h.addRxReq r) h₁ hrx
  have h₃ := (lists_bulkInv f _ _).bulkEndpoints h₂
  rw [List.append_nil, List.append_nil, ← List.range_eq_range'] at h₃
  rw [bindFinish_eq_ret hfinish]
  exact ⟨h₃.txReqs, h₃.rxReqs, h₃.rxBuffers, h₃.currentRxReq⟩

end BindDev

theorem Usb.unbindDev_start {f : Faults} {s : BindDev} (enabled : Bool)
    (hbind : BindDev.init.scaleBind f qlen = .ret s 0) : (Usb.start s enabled).unbindDev = s := by
  obtain ⟨h₁, h₂, h₃, h₄⟩ := BindDev.lists_of_scaleBind hbind
  simp only [unbindDev, start, Tx.bind, Rx.bind, CurrentRx.null, List.map_nil, Option.map_none,
    ← h₁, ← h₂, ← h₃, ← h₄]

/-! ## Steps and runs -/

variable {maxpacket : ℕ} {u u' : Usb} {a : UsbAct}

theorem usbStep_spec (h : usbStep maxpacket u a = some u') :
    u'.dev = u.dev ∧ u'.passed = u.passed ++ u.passes a := by
  rw [usbStep] at h
  split_ifs at h
  cases a with
  | tx b =>
    obtain ⟨t, -, rfl⟩ := Option.map_eq_some_iff.1 h
    exact ⟨rfl, rfl⟩
  | rx b =>
    obtain ⟨t, -, rfl⟩ := Option.map_eq_some_iff.1 h
    exact ⟨rfl, rfl⟩
  | setup =>
    cases h
    exact ⟨rfl, rfl⟩
  | unbind =>
    cases h
    exact ⟨rfl, rfl⟩

theorem eq_nil_of_forall_paired {s : BindDev} {name : ℕ → ReqName} {ep : Option ℕ}
    (hname : ∀ i, ¬Paired s (name i, ep)) {l : List ℕ}
    (h : ∀ p ∈ (l.map name).map (·, ep), Paired s p) : l = [] := by
  cases l with
  | nil => rfl
  | cons r l => exact absurd (h _ List.mem_cons_self) (hname r)

/-- `scale_unbind` keeps the requests with their endpoints only if it finds none of the pools. -/
theorem forall_unbindFrees (hs : u.dev.Apart) :
    (∀ p ∈ u.unbindDev.unbindFrees, Paired u.dev p) ↔ NoPool u .unbind := by
  have hreq : u.unbindDev.req = some .control := hs.req
  rw [BindDev.unbindFrees, hreq, NoPool]
  constructor
  · intro h
    simp only [List.forall_mem_append] at h
    obtain ⟨⟨⟨⟨htx, -⟩, hcurrent⟩, hrx⟩, hbuffers⟩ := h
    refine ⟨eq_nil_of_forall_paired hs.tx htx, ?_, eq_nil_of_forall_paired hs.rx hrx,
      eq_nil_of_forall_paired hs.rx hbuffers⟩
    cases hheld : u.rx.currentRx.req with
    | none => rfl
    | some r =>
      refine absurd (hcurrent (.rx r, u.dev.outEp) ?_) (hs.rx r)
      rw [Usb.unbindDev, hheld]
      exact List.mem_singleton.2 rfl
  · rintro ⟨htx, hcurrent, hrx, hbuffers⟩ p hp
    simp only [Usb.unbindDev, htx, hcurrent, hrx, hbuffers] at hp
    cases List.mem_singleton.1 hp
    exact hs.control

theorem passes_txQueue {error : Bool} {t : Tx} (h : txStep maxpacket u.tx (.queue error) = some t) :
    ∃ r, u.passes (.tx (.queue error)) = [(.tx r, u.dev.inEp)] := by
  rw [txStep] at h
  split at h
  next w r hpc =>
    refine ⟨r, ?_⟩
    rw [Usb.passes, hpc]
  next => cases h

theorem passes_rxQueue {error : Bool} {t : Rx} (h : rxStep u.rx (.queue error) = some t) :
    ∃ r, u.passes (.rx (.queue error)) = [(.rx r, u.dev.outEp)] := by
  rw [rxStep] at h
  split at h
  next c r rest hpc hreqs =>
    refine ⟨r, ?_⟩
    rw [Usb.passes, hpc, hreqs]
  next => cases h

/-- **A step keeps the requests with their endpoints exactly when it leaves the pools alone.** -/
theorem forall_passes (hs : u.dev.Apart) (h : usbStep maxpacket u a = some u') :
    (∀ p ∈ u.passes a, Paired u.dev p) ↔ NoPool u a := by
  rw [usbStep] at h
  split_ifs at h
  cases a with
  | tx b =>
    obtain ⟨t, ht, -⟩ := Option.map_eq_some_iff.1 h
    cases b with
    | queue error =>
      obtain ⟨r, hr⟩ := passes_txQueue ht
      refine iff_of_false (fun hall => hs.tx r (hall _ ?_)) id
      rw [hr]
      exact List.mem_singleton.2 rfl
    | _ => exact iff_of_true (fun p hp => absurd hp List.not_mem_nil) trivial
  | rx b =>
    obtain ⟨t, ht, -⟩ := Option.map_eq_some_iff.1 h
    cases b with
    | queue error =>
      obtain ⟨r, hr⟩ := passes_rxQueue ht
      refine iff_of_false (fun hall => hs.rx r (hall _ ?_)) id
      rw [hr]
      exact List.mem_singleton.2 rfl
    | _ => exact iff_of_true (fun p hp => absurd hp List.not_mem_nil) trivial
  | setup =>
    refine iff_of_true (fun p hp => ?_) trivial
    rw [Usb.passes, hs.req] at hp
    cases List.mem_singleton.1 hp
    exact hs.control
  | unbind => exact forall_unbindFrees hs

/-- **The requests of a run go with the endpoints they were allocated from exactly when the pools
are not used in it.** -/
theorem paired_iff_noPool (f : Faults) (hf : BindDev.Unclaimed f) (s : BindDev)
    (hbind : BindDev.init.scaleBind f qlen = .ret s 0) (maxpacket : ℕ) (enabled : Bool)
    (acts : List UsbAct) (u : Usb)
    (h : Lts.exec (usbStep maxpacket) (.start s enabled) acts = some u) :
    (∀ p ∈ u.passed, Paired s p) ↔
      Lts.Meets (usbStep maxpacket) NoPool (.start s enabled) acts := by
  have hs := BindDev.apart_of_scaleBind hf hbind
  have hpassed : ∀ p ∈ (Usb.start s enabled).passed, Paired s p := by
    intro p hp
    cases hp
  refine Lts.exec_iff_meets (I := fun u => u.dev = s) (P := fun u => ∀ p ∈ u.passed, Paired s p)
    ?_ ?_ ?_ rfl hpassed h
  · intro u a u' hdev hstep
    exact (usbStep_spec hstep).1.trans hdev
  · intro u a u' hstep hall p hp
    apply hall
    rw [(usbStep_spec hstep).2]
    exact List.mem_append_left _ hp
  · intro u a u' hdev hall hstep
    subst hdev
    rw [(usbStep_spec hstep).2, List.forall_mem_append, and_iff_right hall]
    exact forall_passes hs hstep

theorem unclaimed_plenty (fails : ReqName → Bool) : BindDev.Unclaimed (plenty fails) := by
  intro i claimed ep hep hmem
  have hle : ∀ l : List ℕ, ep ∈ l → ep ≤ l.foldr max 0 := by
    intro l hl
    induction l with
    | nil => cases hl
    | cons b l ih =>
      rw [List.foldr_cons]
      obtain rfl | hl := List.mem_cons.1 hl
      · exact Nat.le_max_left _ _
      · exact Nat.le_trans (ih hl) (Nat.le_max_right _ _)
  have hmax : claimed.foldr max 0 + 1 = ep := Option.some.inj hep
  have := hle claimed hmem
  omega

/-- The response of `scale_setup` goes with `ep0`. -/
theorem paired_setup :
    ∃ s, BindDev.init.scaleBind (plenty fun _ => false) qlen = .ret s 0 ∧
      ∃ u, Lts.exec (usbStep 64) (.start s true) [.setup] = some u ∧
        u.passed = [(.control, some 0)] ∧ ∀ p ∈ u.passed, Paired s p :=
  ⟨_, rfl, _, rfl, rfl, (paired_iff_noPool (plenty fun _ => false) (unclaimed_plenty _) _ rfl 64
    true [.setup] _ rfl).2 ⟨trivial, fun _ _ => trivial⟩⟩

/-- One byte is written: the request was allocated from endpoint 1 and is queued on endpoint 3. -/
theorem write_unpaired :
    BindDev.Unclaimed (plenty fun _ => false) ∧
    ∃ s, BindDev.init.scaleBind (plenty fun _ => false) qlen = .ret s 0 ∧
      ∃ u, Lts.exec (usbStep 64) (.start s true)
          [.tx (.write 0 [7] false), .tx .next, .tx (.copyFromUser false), .tx .copied,
            .tx (.queue false)] = some u ∧
        u.passed = [(.tx 9, some 3)] ∧ (.tx 9, 1) ∈ s.allocated ∧ ¬∀ p ∈ u.passed, Paired s p := by
  refine ⟨unclaimed_plenty _, _, rfl, _, rfl, rfl, by decide, fun h => ?_⟩
  obtain ⟨ep, hep, hmem⟩ := h (.tx 9, some 3) (List.mem_singleton.2 rfl)
  cases hep
  exact absurd hmem (by decide)

end LddExample.ScaleUsb
