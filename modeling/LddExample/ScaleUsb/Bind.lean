import Mathlib.Data.Int.Notation
import Mathlib.Data.List.Perm.Basic

/-!
# `scale_bind` and its ways out

`scale_bind` of `NEW_STYLE` chooses the endpoints and allocates the requests. Every call of it that
can fail is answered by `Faults`.

* A request is named by the place of its allocation (`ReqName`), so that each name is allocated at
  most once; an endpoint is a number.
* A list head is `none` until `INIT_LIST_HEAD`.
* `allocated`, `freed`, `bufs`, `freedBufs` are history: the requests with the endpoint given to
  `usb_ep_alloc_request` and to `usb_ep_free_request`, and their buffers. So are `unbound`, the
  gadget data that `scale_unbind` was applied to, and `rawHeads`.
* **`scaleBind`**: the whole function, with the queue length as a parameter.
* `LeavesNothing`: an error leaves nothing behind.
* `CleanExit`: the calls before the allocations succeed or end the function by a plain return, and
  the requests for `dev->req` and the pools are all there.
* **`leavesNothing_iff`**: the first holds exactly when the second does.
-/

namespace LddExample.ScaleUsb

/-- `ENOMEM` -/
def enomem : ℤ := 12

/-- `ENODEV` -/
def enodev : ℤ := 19

/-- `gadget->ep0` -/
def ep0 : ℕ := 0

/-- The requests that `scale_bind` allocates. -/
inductive ReqName
  /-- `dev->req` -/
  | control
  /-- the pool `tx_reqs` -/
  | tx (i : ℕ)
  /-- the pool `rx_reqs` -/
  | rx (i : ℕ)
  /-- `dev->rx_req`, of the call of `adb_create_bulk_endpoints` for `index` -/
  | rxReq (index : ℕ)
  /-- the list `tx_idle` -/
  | txIdle (index i : ℕ)
deriving DecidableEq

/-- What `get_gadget_data` returns. -/
inductive GadgetData
  /-- the `usb_composite_dev` that the composite core has stored -/
  | core
  /-- `&scale`, stored by `scale_bind` -/
  | scale
  | null
deriving DecidableEq

/-- The answers of the calls that can fail. -/
structure Faults where
  /-- `device_create` fails -/
  deviceCreate : Bool
  /-- the error of `cdev_add`, or 0 -/
  cdevAdd : ℕ
  /-- the results of `usb_string_id`; a negative one is an error -/
  stringId : ℕ → ℤ
  /-- the results of `usb_ep_autoconfig`, given the endpoints whose `driver_data` is set -/
  autoconfig : ℕ → List ℕ → Option ℕ
  /-- `usb_ep_alloc_request` fails -/
  allocRequest : ReqName → Bool
  /-- `kmalloc` fails for the buffer -/
  kmalloc : ReqName → Bool

/-- The request and its buffer are there. -/
def Faults.Ok (f : Faults) (r : ReqName) : Prop :=
  f.allocRequest r = false ∧ f.kmalloc r = false

instance instDecidableFaultsOk (f : Faults) (r : ReqName) : Decidable (f.Ok r) :=
  inferInstanceAs (Decidable (_ ∧ _))

/-- The fields of `struct scale_dev` that `scale_bind` sets, and the gadget. -/
structure BindDev where
  inEp : Option ℕ
  outEp : Option ℕ
  testinEp : ℕ → Option ℕ
  testoutEp : ℕ → Option ℕ
  req : Option ReqName
  rxReq : Option ReqName
  currentRxReq : Option ReqName
  txIdle : Option (List ReqName)
  txReqs : Option (List ReqName)
  txReqsActive : Option (List ReqName)
  rxReqs : Option (List ReqName)
  rxReqsActive : Option (List ReqName)
  rxBuffers : Option (List ReqName)
  gadgetData : GadgetData
  /-- the calls of `usb_ep_autoconfig` so far -/
  autoconfigs : ℕ
  /-- the endpoints whose `driver_data` is set -/
  claimed : List ℕ
  allocated : List (ReqName × ℕ)
  freed : List (ReqName × ℕ)
  bufs : List ReqName
  freedBufs : List ReqName
  /-- a list head was read that `INIT_LIST_HEAD` has not set -/
  rawHeads : Bool
  unbound : List GadgetData

/-- How `scale_bind` ends. -/
inductive BindResult
  | ret (s : BindDev) (status : ℤ)
  /-- a null pointer was dereferenced -/
  | oops (s : BindDev)

namespace BindDev

/-- The module is loaded and the composite core calls `scale_bind`. -/
def init : BindDev where
  inEp := none
  outEp := none
  testinEp := fun _ => none
  testoutEp := fun _ => none
  req := none
  rxReq := none
  currentRxReq := none
  txIdle := none
  txReqs := none
  txReqsActive := none
  rxReqs := none
  rxReqsActive := none
  rxBuffers := none
  gadgetData := .core
  autoconfigs := 0
  claimed := []
  allocated := []
  freed := []
  bufs := []
  freedBufs := []
  rawHeads := false
  unbound := []

/-- A request and its buffer from an endpoint; without the buffer the request is freed again. -/
def reqNew (s : BindDev) (f : Faults) (ep : ℕ) (r : ReqName) : BindDev × Bool :=
  if f.allocRequest r then (s, false)
  else
    let s := { s with allocated := s.allocated ++ [(r, ep)] }
    if f.kmalloc r then ({ s with freed := s.freed ++ [(r, ep)] }, false)
    else ({ s with bufs := s.bufs ++ [r] }, true)

/-- `scale_req_alloc` -/
def scaleReqAlloc (s : BindDev) (f : Faults) (ep : ℕ) (r : ReqName) : BindDev × Bool :=
  s.reqNew f ep r

/-- `scale_request_new` -/
def scaleRequestNew (s : BindDev) (f : Faults) (ep : ℕ) (r : ReqName) : BindDev × Bool :=
  s.reqNew f ep r

/-- `scale_req_free` -/
def scaleReqFree (s : BindDev) (ep : Option ℕ) (r : ReqName) : BindDev :=
  match ep with
  | none => s
  | some ep => { s with freed := s.freed ++ [(r, ep)], freedBufs := s.freedBufs ++ [r] }

/-- `scale_req_free` for a list of requests with their endpoints -/
def reqFreeAll (s : BindDev) : List (ReqName × Option ℕ) → BindDev
  | [] => s
  | (r, ep) :: l => (s.scaleReqFree ep r).reqFreeAll l

/-- The calls of `scale_req_free` in `scale_unbind`, in their order. -/
def unbindFrees (s : BindDev) : List (ReqName × Option ℕ) :=
  (s.txReqs.getD []).map (·, s.inEp) ++ s.req.toList.map (·, some ep0) ++
    s.currentRxReq.toList.map (·, s.outEp) ++ (s.rxReqs.getD []).map (·, s.outEp) ++
    (s.rxBuffers.getD []).map (·, s.outEp)

/-- `scale_unbind`. Other gadget data is memory that holds no `struct scale_dev`. -/
def scaleUnbind (s : BindDev) : BindDev :=
  match s.gadgetData with
  | .scale =>
    let raw := s.txReqsActive.isNone || s.rxReqsActive.isNone || s.txReqs.isNone ||
      s.rxReqs.isNone || s.rxBuffers.isNone
    { s.reqFreeAll s.unbindFrees with
      txReqs := some []
      req := none
      rxReqs := some []
      rxBuffers := some []
      gadgetData := .null
      rawHeads := s.rawHeads || raw
      unbound := s.unbound ++ [.scale] }
  | data =>
    { s with gadgetData := .null, rawHeads := true, unbound := s.unbound ++ [data] }

/-- `usb_ep_autoconfig`; what it returns is claimed at once. -/
def usbEpAutoconfig (s : BindDev) (f : Faults) : BindDev × Option ℕ :=
  let ep := f.autoconfig s.autoconfigs s.claimed
  ({ s with autoconfigs := s.autoconfigs + 1, claimed := ep.toList ++ s.claimed }, ep)

/-! ## The pools -/

/-- `list_add(&req->list, &dev->tx_reqs)` -/
def addTxReq (s : BindDev) (r : ReqName) : BindDev :=
  { s with txReqs := s.txReqs.map (r :: ·), rawHeads := s.rawHeads || s.txReqs.isNone }

/-- `list_add(&req->list, &dev->rx_reqs)` -/
def addRxReq (s : BindDev) (r : ReqName) : BindDev :=
  { s with rxReqs := s.rxReqs.map (r :: ·), rawHeads := s.rawHeads || s.rxReqs.isNone }

/-- `while (!list_empty(&dev->tx_reqs))` with `scale_req_free` -/
def drainTxReqs (s : BindDev) : BindDev :=
  { s.reqFreeAll ((s.txReqs.getD []).map (·, s.inEp)) with
    txReqs := some []
    rawHeads := s.rawHeads || s.txReqs.isNone }

/-- `while (!list_empty(&dev->rx_reqs))` with `scale_req_free` -/
def drainRxReqs (s : BindDev) : BindDev :=
  { s.reqFreeAll ((s.rxReqs.getD []).map (·, s.outEp)) with
    rxReqs := some []
    rawHeads := s.rawHeads || s.rxReqs.isNone }

/-- The loop that fills a pool, from request `i` on; at a failure the pool is emptied. -/
def fillPool (f : Faults) (ep : ℕ) (name : ℕ → ReqName) (add : BindDev → ReqName → BindDev)
    (drain : BindDev → BindDev) : ℕ → ℕ → BindDev → BindDev × Bool
  | 0, _, s => (s, true)
  | n + 1, i, s =>
    match s.scaleReqAlloc f ep (name i) with
    | (s, false) => (drain s, false)
    | (s, true) => fillPool f ep name add drain n (i + 1) (add s (name i))

/-- The loop over `tx_reqs` -/
def fillTxReqs (s : BindDev) (f : Faults) (qlen inEp : ℕ) : BindDev × Bool :=
  fillPool f inEp .tx addTxReq drainTxReqs qlen 0 s

/-- The loop over `rx_reqs` -/
def fillRxReqs (s : BindDev) (f : Faults) (qlen outEp : ℕ) : BindDev × Bool :=
  fillPool f outEp .rx addRxReq drainRxReqs qlen 0 s

/-! ## `adb_create_bulk_endpoints` -/

/-- The loop over `tx_idle` -/
def fillTxIdle (f : Faults) (index ep : ℕ) : ℕ → ℕ → BindDev → BindDev × ℤ
  | 0, _, s => (s, 0)
  | n + 1, i, s =>
    match s.scaleRequestNew f ep (.txIdle index i) with
    | (s, false) => (s, -1)
    | (s, true) =>
      fillTxIdle f index ep n (i + 1)
        { s with txIdle := s.txIdle.map (· ++ [.txIdle index i]) }

/-- `adb_create_bulk_endpoints` -/
def adbCreateBulkEndpoints (s : BindDev) (f : Faults) (index : ℕ) : BindDev × ℤ :=
  match s.usbEpAutoconfig f with
  | (s, none) => (s, -enodev)
  | (s, some inEp) =>
    let s := { s with testinEp := fun i => if i = index then some inEp else s.testinEp i }
    match s.usbEpAutoconfig f with
    | (s, none) => (s, -enodev)
    | (s, some outEp) =>
      let s := { s with testoutEp := fun i => if i = index then some outEp else s.testoutEp i }
      match s.scaleRequestNew f outEp (.rxReq index) with
      | (s, false) => (s, -1)
      | (s, true) => fillTxIdle f index inEp 4 0 { s with rxReq := some (.rxReq index) }

/-! ## `scale_bind` -/

/-- The initialisation between the endpoints and the allocations. -/
def initLists (s : BindDev) (inEp outEp : ℕ) : BindDev :=
  { s with
    txReqs := some []
    txReqsActive := some []
    rxReqs := some []
    rxReqsActive := some []
    rxBuffers := some []
    currentRxReq := none
    inEp := some inEp
    outEp := some outEp }

/-- The end of `scale_bind`: the results of `adb_create_bulk_endpoints` are dropped, the endpoints
are chosen again, and the last message prints their names. -/
def bindFinish (s : BindDev) (f : Faults) : BindResult :=
  let s := (s.adbCreateBulkEndpoints f 0).1
  let s := (s.adbCreateBulkEndpoints f 1).1
  let s := (s.adbCreateBulkEndpoints f 2).1
  let s := { s with inEp := s.testinEp 0, outEp := s.testoutEp 0, gadgetData := .scale }
  if s.testinEp 0 = none ∨ s.testoutEp 0 = none then .oops s else .ret s 0

/-- `scale_bind` from the pools on. -/
def bindPools (s : BindDev) (f : Faults) (qlen inEp outEp : ℕ) : BindResult :=
  match s.fillTxReqs f qlen inEp with
  | (s, false) => .ret s (-enomem)
  | (s, true) =>
    match s.fillRxReqs f qlen outEp with
    | (s, false) => .ret s (-enomem)
    | (s, true) => s.bindFinish f

/-- `scale_bind` from the allocations on. -/
def bindAlloc (s : BindDev) (f : Faults) (qlen inEp outEp : ℕ) : BindResult :=
  match s.scaleReqAlloc f ep0 .control with
  | (s, false) => .ret { s with req := none }.scaleUnbind (-enomem)
  | (s, true) => { s with req := some .control }.bindPools f qlen inEp outEp

/-- `scale_bind` from the choice of the endpoints on. -/
def bindEndpoints (s : BindDev) (f : Faults) (qlen : ℕ) : BindResult :=
  let s := { s with claimed := [], txIdle := some [] }
  match s.usbEpAutoconfig f with
  | (s, none) => .ret s (-enodev)
  | (s, some inEp) =>
    match s.usbEpAutoconfig f with
    | (s, none) => .ret s (-enodev)
    | (s, some outEp) => (s.initLists inEp outEp).bindAlloc f qlen inEp outEp

/-- **`scale_bind`** -/
def scaleBind (s : BindDev) (f : Faults) (qlen : ℕ) : BindResult :=
  if f.deviceCreate then .ret s.scaleUnbind (-enomem)
  else if f.cdevAdd ≠ 0 then .ret s.scaleUnbind (-f.cdevAdd)
  else if f.stringId 0 < 0 then .ret s (f.stringId 0)
  else if f.stringId 1 < 0 then .ret s (f.stringId 1)
  else if f.stringId 2 < 0 then .ret s (f.stringId 2)
  else s.bindEndpoints f qlen

end BindDev

/-! ## What an error leaves behind -/

/-- Nothing is left behind, and the clean-up touched only what was set up. -/
structure BindDev.Clean (s : BindDev) : Prop where
  reqs : (s.freed.map Prod.fst).Perm (s.allocated.map Prod.fst)
  bufs : s.freedBufs.Perm s.bufs
  heads : s.rawHeads = false
  unbound : ∀ data ∈ s.unbound, data = .scale

/-- **An error leaves nothing behind.** -/
def LeavesNothing : BindResult → Prop
  | .ret s status => status < 0 → s.Clean
  | .oops _ => True

namespace Faults

variable (f : Faults)

/-- One of the calls of `usb_string_id` fails. -/
def StringIdFails : Prop :=
  f.stringId 0 < 0 ∨ f.stringId 1 < 0 ∨ f.stringId 2 < 0

/-- One of the first two calls of `usb_ep_autoconfig` fails. -/
def EndpointsMissing : Prop :=
  match f.autoconfig 0 [] with
  | none => True
  | some inEp => f.autoconfig 1 [inEp] = none

/-- `dev->req` and the requests of both pools are there. -/
def PoolsOk (qlen : ℕ) : Prop :=
  f.Ok .control ∧ (∀ i < qlen, f.Ok (.tx i)) ∧ ∀ i < qlen, f.Ok (.rx i)

/-- The failures that `scale_bind` handles. -/
def CleanExit (qlen : ℕ) : Prop :=
  f.deviceCreate = false ∧ f.cdevAdd = 0 ∧
    (f.StringIdFails ∨ f.EndpointsMissing ∨ f.PoolsOk qlen)

end Faults

namespace BindDev

variable {f : Faults} {s : BindDev} {r : ReqName} {ep : ℕ}

theorem reqNew_of_ok (h : f.Ok r) :
    s.reqNew f ep r =
      ({ s with allocated := s.allocated ++ [(r, ep)], bufs := s.bufs ++ [r] }, true) := by
  simp [reqNew, h.1, h.2]

theorem reqNew_snd : (s.reqNew f ep r).2 = true ↔ f.Ok r := by
  rw [reqNew, Faults.Ok]
  split_ifs <;> simp [*]

theorem reqNew_gadgetData : (s.reqNew f ep r).1.gadgetData = s.gadgetData := by
  rw [reqNew]
  split_ifs <;> rfl

/-- A pool is filled exactly when all its requests are there. -/
theorem fillPool_snd {name : ℕ → ReqName} {add : BindDev → ReqName → BindDev}
    {drain : BindDev → BindDev} {n i : ℕ} :
    (fillPool f ep name add drain n i s).2 = true ↔ ∀ j < n, f.Ok (name (i + j)) := by
  induction n generalizing i s with
  | zero => simp [fillPool]
  | succ n ih =>
    have hsnd := @reqNew_snd f s (name i) ep
    rw [fillPool, scaleReqAlloc]
    cases hnew : s.reqNew f ep (name i) with
    | mk s' ok =>
      rw [hnew] at hsnd
      cases ok with
      | false =>
        refine iff_of_false (by simp) fun hall => ?_
        exact absurd (hsnd.2 (hall 0 (Nat.succ_pos n))) (by simp)
      | true =>
        dsimp only
        rw [ih]
        constructor
        · intro hall j hj
          cases j with
          | zero => exact hsnd.1 rfl
          | succ j =>
            have := hall j (by omega)
            rwa [Nat.add_right_comm, Nat.add_assoc] at this
        · intro hall j hj
          have := hall (j + 1) (by omega)
          rwa [Nat.add_right_comm, Nat.add_assoc]

/-! ## `dev->req` is leaked -/

/-- `dev->req` is allocated, not freed, and not on the lists of the pools. -/
structure Leaks (s : BindDev) : Prop where
  allocated : .control ∈ s.allocated.map Prod.fst
  freed : .control ∉ s.freed.map Prod.fst
  txReqs : .control ∉ s.txReqs.getD []
  rxReqs : .control ∉ s.rxReqs.getD []

theorem Leaks.not_clean (h : s.Leaks) : ¬s.Clean := by
  intro hclean
  exact h.freed (hclean.reqs.mem_iff.2 h.allocated)

theorem Leaks.reqNew (h : s.Leaks) (f : Faults) (ep : ℕ) (hr : r ≠ .control) :
    (s.reqNew f ep r).1.Leaks := by
  have halloc : .control ∈ (s.allocated ++ [(r, ep)]).map Prod.fst := by
    rw [List.map_append]
    exact List.mem_append_left _ h.allocated
  rw [BindDev.reqNew]
  split_ifs
  · exact h
  · refine ⟨halloc, ?_, h.txReqs, h.rxReqs⟩
    rw [List.map_append, List.mem_append, not_or]
    exact ⟨h.freed, fun hmem => hr (List.mem_singleton.1 hmem).symm⟩
  · exact ⟨halloc, h.freed, h.txReqs, h.rxReqs⟩

theorem reqFreeAll_fields (s : BindDev) (l : List (ReqName × Option ℕ)) :
    (s.reqFreeAll l).allocated = s.allocated ∧ (s.reqFreeAll l).txReqs = s.txReqs ∧
      (s.reqFreeAll l).rxReqs = s.rxReqs := by
  induction l generalizing s with
  | nil => exact ⟨rfl, rfl, rfl⟩
  | cons p l ih =>
    obtain ⟨r, ep⟩ := p
    rw [reqFreeAll]
    obtain ⟨ha, ht, hx⟩ := ih (s.scaleReqFree ep r)
    rw [ha, ht, hx]
    cases ep <;> exact ⟨rfl, rfl, rfl⟩

theorem control_notMem_reqFreeAll {l : List (ReqName × Option ℕ)}
    (hl : .control ∉ l.map Prod.fst) (h : .control ∉ s.freed.map Prod.fst) :
    .control ∉ (s.reqFreeAll l).freed.map Prod.fst := by
  induction l generalizing s with
  | nil => exact h
  | cons p l ih =>
    obtain ⟨r, ep⟩ := p
    rw [List.map_cons, List.mem_cons, not_or] at hl
    rw [reqFreeAll]
    refine ih hl.2 ?_
    cases ep with
    | none => exact h
    | some ep =>
      change _ ∉ (s.freed ++ [(r, ep)]).map Prod.fst
      rw [List.map_append, List.mem_append, not_or]
      exact ⟨h, fun hmem => hl.1 (List.mem_singleton.1 hmem)⟩

theorem Leaks.reqFreeAll (h : s.Leaks) {l : List (ReqName × Option ℕ)}
    (hl : .control ∉ l.map Prod.fst) : (s.reqFreeAll l).Leaks := by
  obtain ⟨ha, ht, hx⟩ := reqFreeAll_fields s l
  exact ⟨ha ▸ h.allocated, control_notMem_reqFreeAll hl h.freed, ht ▸ h.txReqs, hx ▸ h.rxReqs⟩

theorem map_fst_pair (l : List ReqName) (ep : Option ℕ) :
    (l.map (·, ep)).map Prod.fst = l := by
  rw [List.map_map]
  exact List.map_id _

theorem Leaks.drainTxReqs (h : s.Leaks) : s.drainTxReqs.Leaks := by
  have hfree := h.reqFreeAll (l := (s.txReqs.getD []).map (·, s.inEp))
    (by rw [map_fst_pair]; exact h.txReqs)
  exact ⟨hfree.allocated, hfree.freed, List.not_mem_nil, hfree.rxReqs⟩

theorem Leaks.drainRxReqs (h : s.Leaks) : s.drainRxReqs.Leaks := by
  have hfree := h.reqFreeAll (l := (s.rxReqs.getD []).map (·, s.outEp))
    (by rw [map_fst_pair]; exact h.rxReqs)
  exact ⟨hfree.allocated, hfree.freed, hfree.txReqs, List.not_mem_nil⟩

theorem control_notMem_add {l : Option (List ReqName)} (hr : r ≠ .control)
    (h : .control ∉ l.getD []) : .control ∉ (l.map (r :: ·)).getD [] := by
  cases l with
  | none => exact h
  | some l =>
    intro hmem
    obtain hmem | hmem := List.mem_cons.1 hmem
    · exact hr hmem.symm
    · exact h hmem

theorem Leaks.addTxReq (h : s.Leaks) (hr : r ≠ .control) : (s.addTxReq r).Leaks :=
  ⟨h.allocated, h.freed, control_notMem_add hr h.txReqs, h.rxReqs⟩

theorem Leaks.addRxReq (h : s.Leaks) (hr : r ≠ .control) : (s.addRxReq r).Leaks :=
  ⟨h.allocated, h.freed, h.txReqs, control_notMem_add hr h.rxReqs⟩

theorem Leaks.fillPool {name : ℕ → ReqName} {add : BindDev → ReqName → BindDev}
    {drain : BindDev → BindDev} (hname : ∀ i, name i ≠ .control)
    (hadd : ∀ s i, s.Leaks → (add s (name i)).Leaks) (hdrain : ∀ s, s.Leaks → (drain s).Leaks)
    {n i : ℕ} (h : s.Leaks) : (fillPool f ep name add drain n i s).1.Leaks := by
  induction n generalizing i s with
  | zero => exact h
  | succ n ih =>
    have hnew := h.reqNew f ep (hname i)
    rw [BindDev.fillPool, scaleReqAlloc]
    cases hreq : s.reqNew f ep (name i) with
    | mk s' ok =>
      rw [hreq] at hnew
      cases ok with
      | false => exact hdrain s' hnew
      | true => exact ih (hadd s' i hnew)

theorem Leaks.fillTxReqs (h : s.Leaks) (f : Faults) (qlen ep : ℕ) :
    (s.fillTxReqs f qlen ep).1.Leaks := by
  have hname : ∀ i, ReqName.tx i ≠ .control := by
    intro i hi
    cases hi
  rw [BindDev.fillTxReqs]
  exact h.fillPool hname (fun _ i hs => hs.addTxReq (hname i)) fun _ hs => hs.drainTxReqs

theorem Leaks.fillRxReqs (h : s.Leaks) (f : Faults) (qlen ep : ℕ) :
    (s.fillRxReqs f qlen ep).1.Leaks := by
  have hname : ∀ i, ReqName.rx i ≠ .control := by
    intro i hi
    cases hi
  rw [BindDev.fillRxReqs]
  exact h.fillPool hname (fun _ i hs => hs.addRxReq (hname i)) fun _ hs => hs.drainRxReqs

theorem fillTxReqs_snd {qlen : ℕ} :
    (s.fillTxReqs f qlen ep).2 = true ↔ ∀ i < qlen, f.Ok (.tx i) := by
  rw [BindDev.fillTxReqs, fillPool_snd]
  simp only [Nat.zero_add]

theorem fillRxReqs_snd {qlen : ℕ} :
    (s.fillRxReqs f qlen ep).2 = true ↔ ∀ i < qlen, f.Ok (.rx i) := by
  rw [BindDev.fillRxReqs, fillPool_snd]
  simp only [Nat.zero_add]

/-! ## The ways out -/

/-- `scale_unbind` finds what the composite core has stored. -/
theorem not_clean_scaleUnbind (h : s.gadgetData = .core) : ¬s.scaleUnbind.Clean := by
  intro hclean
  rw [scaleUnbind, h] at hclean
  cases hclean.heads

theorem leavesNothing_bindFinish (s : BindDev) (f : Faults) : LeavesNothing (s.bindFinish f) := by
  rw [bindFinish]
  split_ifs
  · trivial
  · exact fun hneg => absurd hneg (by decide)

theorem Leaks.leavesNothing_pools (h : s.Leaks) {qlen inEp outEp : ℕ} :
    LeavesNothing (s.bindPools f qlen inEp outEp) ↔
      (∀ i < qlen, f.Ok (.tx i)) ∧ ∀ i < qlen, f.Ok (.rx i) := by
  have htx := @fillTxReqs_snd f s inEp qlen
  have hleaks := h.fillTxReqs f qlen inEp
  rw [bindPools]
  cases hfill : s.fillTxReqs f qlen inEp with
  | mk s₁ ok =>
    rw [hfill] at htx hleaks
    cases ok with
    | false =>
      refine iff_of_false (fun hleaves => hleaks.not_clean (hleaves (by decide))) fun hok => ?_
      exact absurd (htx.2 hok.1) Bool.false_ne_true
    | true =>
      have hrx := @fillRxReqs_snd f s₁ outEp qlen
      have hleaks₂ := hleaks.fillRxReqs f qlen outEp
      dsimp only
      rw [and_iff_right (htx.1 rfl)]
      cases hfill₂ : s₁.fillRxReqs f qlen outEp with
      | mk s₂ ok₂ =>
        rw [hfill₂] at hrx hleaks₂
        cases ok₂ with
        | false =>
          refine iff_of_false (fun hleaves => hleaks₂.not_clean (hleaves (by decide))) fun hok => ?_
          exact absurd (hrx.2 hok) Bool.false_ne_true
        | true => exact iff_of_true (leavesNothing_bindFinish s₂ f) (hrx.1 rfl)

/-- **From the allocations on, nothing is left behind exactly when they all succeed.** -/
theorem leavesNothing_bindAlloc {qlen inEp outEp : ℕ} (hdata : s.gadgetData = .core)
    (hfreed : s.freed = []) (htx : s.txReqs = some []) (hrx : s.rxReqs = some []) :
    LeavesNothing (s.bindAlloc f qlen inEp outEp) ↔ f.PoolsOk qlen := by
  have hsnd := @reqNew_snd f s .control ep0
  have hgadget : (s.reqNew f ep0 .control).1.gadgetData = .core := reqNew_gadgetData.trans hdata
  rw [bindAlloc, scaleReqAlloc, Faults.PoolsOk]
  by_cases hcontrol : f.Ok .control
  · rw [reqNew_of_ok hcontrol, and_iff_right hcontrol]
    refine Leaks.leavesNothing_pools ⟨?_, ?_, ?_, ?_⟩
    · simp
    · simp [hfreed]
    · simp [htx]
    · simp [hrx]
  · refine iff_of_false ?_ fun hok => hcontrol hok.1
    cases hnew : s.reqNew f ep0 .control with
    | mk s' ok =>
      rw [hnew] at hsnd hgadget
      cases ok with
      | true => exact absurd (hsnd.1 rfl) hcontrol
      | false =>
        intro hleaves
        have hreq : ({ s' with req := none } : BindDev).gadgetData = .core := hgadget
        exact not_clean_scaleUnbind hreq (hleaves (by decide))

theorem clean_of_nothing (hfreed : s.freed = []) (halloc : s.allocated = []) (hbufs : s.bufs = [])
    (hfreedBufs : s.freedBufs = []) (hraw : s.rawHeads = false) (hunbound : s.unbound = []) :
    s.Clean := by
  refine ⟨?_, ?_, hraw, ?_⟩
  · rw [hfreed, halloc]
  · rw [hfreedBufs, hbufs]
  · rw [hunbound]
    intro data hmem
    cases hmem

theorem leavesNothing_bindEndpoints {qlen : ℕ} :
    LeavesNothing (init.bindEndpoints f qlen) ↔ f.EndpointsMissing ∨ f.PoolsOk qlen := by
  rw [bindEndpoints, Faults.EndpointsMissing]
  simp only [usbEpAutoconfig, init]
  cases hin : f.autoconfig 0 [] with
  | none =>
    refine iff_of_true (fun _ => ?_) (.inl trivial)
    exact clean_of_nothing rfl rfl rfl rfl rfl rfl
  | some inEp =>
    simp only [Option.toList_some, List.append_nil, Nat.zero_add]
    cases hout : f.autoconfig 1 [inEp] with
    | none =>
      refine iff_of_true (fun _ => ?_) (.inl rfl)
      exact clean_of_nothing rfl rfl rfl rfl rfl rfl
    | some outEp =>
      rw [or_iff_right (by simp)]
      exact leavesNothing_bindAlloc rfl rfl rfl rfl

end BindDev

/-- **A failed `scale_bind` leaves nothing behind exactly for the failures it handles.** -/
theorem leavesNothing_iff (f : Faults) (qlen : ℕ) :
    LeavesNothing (BindDev.init.scaleBind f qlen) ↔ f.CleanExit qlen := by
  rw [BindDev.scaleBind, Faults.CleanExit, Faults.StringIdFails]
  have hunbind : ¬BindDev.init.scaleUnbind.Clean := BindDev.not_clean_scaleUnbind rfl
  have hclean : BindDev.init.Clean := BindDev.clean_of_nothing rfl rfl rfl rfl rfl rfl
  split_ifs with hcreate hadd h₀ h₁ h₂
  · refine iff_of_false (fun h => hunbind (h (by decide))) fun h => ?_
    rw [hcreate] at h
    cases h.1
  · refine iff_of_false (fun h => hunbind (h ?_)) fun h => hadd h.2.1
    omega
  · exact iff_of_true (fun _ => hclean) ⟨by simpa using hcreate, not_not.1 hadd, .inl (.inl h₀)⟩
  · exact iff_of_true (fun _ => hclean)
      ⟨by simpa using hcreate, not_not.1 hadd, .inl (.inr (.inl h₁))⟩
  · exact iff_of_true (fun _ => hclean)
      ⟨by simpa using hcreate, not_not.1 hadd, .inl (.inr (.inr h₂))⟩
  · have hstring : ¬(f.stringId 0 < 0 ∨ f.stringId 1 < 0 ∨ f.stringId 2 < 0) := by
      rintro (h | h | h)
      · exact h₀ h
      · exact h₁ h
      · exact h₂ h
    rw [BindDev.leavesNothing_bindEndpoints, and_iff_right (by simpa using hcreate),
      and_iff_right (not_not.1 hadd), or_iff_right hstring]

/-- A controller with as many endpoints as `scale_bind` asks for, where `fails` says which requests
cannot be allocated. -/
def plenty (fails : ReqName → Bool) : Faults where
  deviceCreate := false
  cdevAdd := 0
  stringId := fun i => i + 1
  autoconfig := fun _ claimed => some (claimed.foldr max 0 + 1)
  allocRequest := fails
  kmalloc := fun _ => false

/-- Without the fourth request for `tx_reqs`, `scale_bind` returns `-ENOMEM` and `dev->req` is left
behind. -/
theorem txReqs_leaks :
    ∃ s, BindDev.init.scaleBind (plenty (· = .tx 3)) 10 = .ret s (-12) ∧
      s.allocated.map Prod.fst = [.control, .tx 0, .tx 1, .tx 2] ∧
      s.freed.map Prod.fst = [.tx 2, .tx 1, .tx 0] ∧ ¬LeavesNothing (.ret s (-12)) := by
  refine ⟨_, rfl, rfl, rfl, fun h => ?_⟩
  have hlen := (h (by decide)).reqs.length_eq
  exact absurd hlen (by decide)

-- without the device node it applies `scale_unbind` to the data of the composite core
example : ∃ s, BindDev.init.scaleBind { plenty (fun _ => false) with deviceCreate := true } 10 =
    .ret s (-12) ∧ s.unbound = [.core] :=
  ⟨_, rfl, rfl⟩

end LddExample.ScaleUsb
