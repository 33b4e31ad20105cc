import LddExample.Lib.Bytes
import LddExample.Lib.Lts
import LddExample.ScaleUsb.Endpoints
import Mathlib.Data.List.Pairwise
import Mathlib.Data.Nat.Basic
import Mathlib.Order.Basic
import Mathlib.Tactic.SplitIfs

/-!
# The choice of endpoints

A function describes an endpoint by its direction, its type and a packet size, and gets one of the
endpoints of the controller whose name allows this. The search changes the descriptor as it goes:
an endpoint that is turned down may already have filled in the packet size, or used up a number.

* `UsbEp`, `EpDesc`, `Controller`: endpoints, descriptors and the chip.
* `epMatches`, `usbEpAutoconfig`: the check of one endpoint and the search.
* `Pool`, `poolStep`: the endpoints that are claimed, and what was chosen since the last reset. The
  claim is an action of its own: the search does not claim what it returns.
* `Pool.Room`, `Pool.AllClaimed`: the counter does not wrap; the callers have claimed what they got.
* `Matched`: what a descriptor says of the endpoint that was chosen for it.
* `unclaimed_autoconf`: what the scale's `bind` relies on.
* **`endpoints_chosen`**: in every run, no endpoint is chosen that is claimed, so that none is
  chosen twice when the callers claim them; every descriptor keeps its direction and type and promises no
  larger packets than its endpoint takes, and an endpoint without a number in its name gets a new
  one between 1 and 15.
-/

namespace LddExample.Composite

/-! ## Endpoints -/

/-- `struct usb_ep` -/
structure UsbEp where
  name : List Char
  maxpacket : UInt16
deriving DecidableEq

/-- `struct usb_endpoint_descriptor` -/
structure EpDesc where
  bEndpointAddress : UInt8
  bmAttributes : UInt8
  wMaxPacketSize : UInt16
deriving DecidableEq

/-- The peripheral controller: `ep_list`, and the chips that get special treatment -/
structure Controller where
  eps : List UsbEp
  dualspeed : Bool
  pxa : Bool
  net2280 : Bool
  goku : Bool
deriving DecidableEq

/-- The transfer types. -/
def xferType (desc : EpDesc) : UInt8 := desc.bmAttributes &&& 0x03

/-- `USB_ENDPOINT_XFER_CONTROL` -/
def xferControl : UInt8 := 0

/-- `USB_ENDPOINT_XFER_ISOC` -/
def xferIsoc : UInt8 := 1

/-- `USB_ENDPOINT_XFER_BULK` -/
def xferBulk : UInt8 := 2

/-- `USB_ENDPOINT_XFER_INT` -/
def xferInt : UInt8 := 3

/-- `USB_DIR_IN & desc->bEndpointAddress` -/
def EpDesc.isIn (desc : EpDesc) : Bool := desc.bEndpointAddress &&& 0x80 != 0

/-- A character of a name; behind its end is the terminator. -/
def charAt (name : List Char) (i : ℕ) : Char := name.getD i '\x00'

/-- `strrchr(name, '-')`: the part before the last dash, and the part behind it -/
def strrchrDash (name : List Char) : Option (List Char × List Char) :=
  let after := (name.reverse.takeWhile (· ≠ '-')).reverse
  if after.length = name.length then none
  else some (name.take (name.length - after.length - 1), after)

/-- `simple_strtoul(s, NULL, 10)` -/
def strtoul (s : List Char) : ℕ :=
  (s.takeWhile Char.isDigit).foldl (fun n c => n * 10 + (c.toNat - 48)) 0

/-- The type restriction of a name, with the part behind its last dash. -/
def typeFits (G : Controller) (type : UInt8) (after : List Char) : Bool :=
  if type = xferInt then !(charAt after 1 == 's') && !(G.pxa && charAt after 0 == 'i')
  else if type = xferBulk then charAt after 0 == 'b'
  else if type = xferIsoc then charAt after 1 == 's'
  else true

/-- The direction restriction, with the character before the dash or the end. -/
def directionFits (desc : EpDesc) (c : Char) : Bool :=
  c.isDigit || if desc.isIn then c == 'n' else c == 't'

/-- The tests of `ep_matches` on the name of an endpoint. -/
def nameFits (G : Controller) (name : List Char) (desc : EpDesc) : Bool :=
  if charAt name 2 = '-' then true
  else
    match strrchrDash name with
    | some (before, after) =>
      typeFits G (xferType desc) after && directionFits desc (before.getLastD '\x00')
    | none => directionFits desc (name.getLastD '\x00')

/-- The limits on the packet size of periodic endpoints. -/
def sizeFits (G : Controller) (ep : UsbEp) (desc : EpDesc) : Bool :=
  let max := 0x7ff &&& desc.wMaxPacketSize
  if xferType desc = xferInt ∧ G.dualspeed = false ∧ 64 < max then false
  else if xferType desc = xferInt ∨ xferType desc = xferIsoc then
    !decide (ep.maxpacket < max) && (G.dualspeed || !decide (1023 < max)) &&
      (desc.wMaxPacketSize &&& 0x1800 == 0 || G.dualspeed)
  else true

/-- The descriptor with the largest packet size, if the driver has not decided on one. -/
def EpDesc.sized (desc : EpDesc) (ep : UsbEp) : EpDesc :=
  if desc.wMaxPacketSize = 0 then { desc with wMaxPacketSize := ep.maxpacket } else desc

/-- The descriptor with the number of its endpoint, and the packet size of bulk endpoints. -/
def EpDesc.numbered (desc : EpDesc) (ep : UsbEp) (num : UInt8) : EpDesc :=
  { desc with
    bEndpointAddress := desc.bEndpointAddress &&& 0x80 ||| num
    wMaxPacketSize := if xferType desc = xferBulk then min ep.maxpacket 64
      else desc.wMaxPacketSize }

/-- `ep_matches`: its result, the descriptor and `epnum` after it -/
def epMatches (G : Controller) (claimed : Bool) (ep : UsbEp) (desc : EpDesc) (epnum : UInt32) :
    Bool × EpDesc × UInt32 :=
  if claimed || xferType desc == xferControl || charAt ep.name 0 != 'e' ||
      !nameFits G ep.name desc then
    (false, desc, epnum)
  else
    let desc := desc.sized ep
    if !sizeFits G ep desc then
      (false, desc, epnum)
    else if (charAt ep.name 2).isDigit then
      (true, desc.numbered ep (UInt8.ofNat (strtoul (ep.name.drop 2))), epnum)
    else if 15 < epnum + 1 then
      (false, { desc with bEndpointAddress := desc.bEndpointAddress &&& 0x80 }, epnum + 1)
    else
      (true, desc.numbered ep (UInt8.ofNat (epnum + 1).toNat), epnum + 1)

/-- `find_ep` -/
def findEp (G : Controller) (name : String) : List ℕ :=
  (G.eps.findIdx? fun ep => ep.name == name.toList).toList

/-- The endpoints that are looked at first on some chips. -/
def preferred (G : Controller) (desc : EpDesc) : List ℕ :=
  if G.net2280 = true ∧ xferType desc = xferInt then findEp G "ep-e" ++ findEp G "ep-f"
  else if G.goku = true then
    if xferType desc = xferInt then findEp G "ep3-bulk"
    else if xferType desc = xferBulk ∧ desc.isIn = true then findEp G "ep2-bulk"
    else []
  else []

/-- Endpoints are tried one after the other. -/
def tryEps (G : Controller) (claimed : List ℕ) :
    List ℕ → EpDesc → UInt32 → Option ℕ × EpDesc × UInt32
  | [], desc, epnum => (none, desc, epnum)
  | i :: is, desc, epnum =>
    match G.eps[i]? with
    | none => tryEps G claimed is desc epnum
    | some ep =>
      match epMatches G (claimed.contains i) ep desc epnum with
      | (true, desc, epnum) => (some i, desc, epnum)
      | (false, desc, epnum) => tryEps G claimed is desc epnum

/-- `usb_ep_autoconfig`, with `driver_data` set for the endpoints `claimed` -/
def usbEpAutoconfig (G : Controller) (claimed : List ℕ) (desc : EpDesc) (epnum : UInt32) :
    Option ℕ × EpDesc × UInt32 :=
  tryEps G claimed (preferred G desc ++ List.range G.eps.length) desc epnum

/-! ## Runs -/

/-- A choice: the endpoint, the descriptor before it and the one after it. -/
structure Choice where
  ep : ℕ
  want : EpDesc
  got : EpDesc
deriving DecidableEq

/-- What the search goes by, and what it chose since the last reset, the last choice first. -/
structure Pool where
  epnum : UInt32
  /-- the endpoints with `driver_data` -/
  claimed : List ℕ
  choices : List Choice
deriving DecidableEq

/-- No endpoint is chosen or claimed. -/
def Pool.init : Pool := ⟨0, [], []⟩

/-- A call, or a caller sets `driver_data` of an endpoint. -/
inductive PoolAct
  | autoconfig (desc : EpDesc)
  | claim (ep : ℕ)
  | reset

/-- `usb_ep_autoconfig`, a claim, and `usb_ep_autoconfig_reset` -/
def poolStep (G : Controller) (p : Pool) : PoolAct → Option Pool
  | .autoconfig desc =>
    match usbEpAutoconfig G p.claimed desc p.epnum with
    | (some i, got, epnum) => some { p with epnum := epnum, choices := ⟨i, desc, got⟩ :: p.choices }
    | (none, _, epnum) => some { p with epnum := epnum }
  | .claim ep => some { p with claimed := ep :: p.claimed }
  | .reset => some .init

/-- `epnum` does not wrap in the search: at most two endpoints are preferred. -/
def Pool.Room (G : Controller) (p : Pool) : PoolAct → Prop
  | .autoconfig _ => p.epnum.toNat + G.eps.length + 2 < 2 ^ 32
  | .claim _ | .reset => True

/-- Before a search, all that was chosen is claimed. -/
def Pool.AllClaimed (p : Pool) : PoolAct → Prop
  | .autoconfig _ => ∀ c ∈ p.choices, c.ep ∈ p.claimed
  | .claim _ | .reset => True

instance (G : Controller) (p : Pool) (a : PoolAct) : Decidable (p.Room G a) :=
  match a with
  | .autoconfig _ => inferInstanceAs (Decidable (_ < _))
  | .claim _ | .reset => isTrue trivial

instance (p : Pool) (a : PoolAct) : Decidable (p.AllClaimed a) :=
  match a with
  | .autoconfig _ => inferInstanceAs (Decidable (∀ c ∈ p.choices, c.ep ∈ p.claimed))
  | .claim _ | .reset => isTrue trivial

/-! ## One endpoint -/

/-- The name of the endpoint has no number. -/
def UsbEp.Unnumbered (ep : UsbEp) : Prop := (charAt ep.name 2).isDigit = false

/-- Endpoints that have a number have one below 16. -/
def Controller.Named (G : Controller) : Prop :=
  ∀ ep ∈ G.eps, (charAt ep.name 2).isDigit = true → strtoul (ep.name.drop 2) < 16

/-- The number in the address of a descriptor. -/
def EpDesc.number (desc : EpDesc) : ℕ := (desc.bEndpointAddress &&& 0x0f).toNat

/-- What a descriptor says of the endpoint that was chosen for it. -/
structure Matched (ep : UsbEp) (want got : EpDesc) : Prop where
  direction : got.bEndpointAddress &&& 0x80 = want.bEndpointAddress &&& 0x80
  attributes : got.bmAttributes = want.bmAttributes
  size : 0x7ff &&& got.wMaxPacketSize ≤ ep.maxpacket
  number : ¬ep.Unnumbered → got.number = strtoul (ep.name.drop 2)

theorem address_bits : ∀ addr : UInt8, ∀ n < 16,
    (addr &&& 0x80 ||| UInt8.ofNat n) &&& 0x80 = addr &&& 0x80 ∧
      ((addr &&& 0x80 ||| UInt8.ofNat n) &&& 0x0f).toNat = n := by
  have hall : ∀ addr : Fin 256, ∀ n < 16,
      (UInt8.ofFin addr &&& 0x80 ||| UInt8.ofNat n) &&& 0x80 = UInt8.ofFin addr &&& 0x80 ∧
        ((UInt8.ofFin addr &&& 0x80 ||| UInt8.ofNat n) &&& 0x0f).toNat = n := by
    decide +kernel
  exact fun addr => hall addr.toFin

theorem sized_keeps (desc : EpDesc) (ep : UsbEp) :
    (desc.sized ep).bEndpointAddress = desc.bEndpointAddress ∧
      (desc.sized ep).bmAttributes = desc.bmAttributes := by
  rw [EpDesc.sized]
  split_ifs
  · exact ⟨rfl, rfl⟩
  · exact ⟨rfl, rfl⟩

theorem and_le (x : UInt16) : 0x7ff &&& x ≤ x := by
  rw [UInt16.le_iff_toNat_le, UInt16.toNat_and]
  exact Nat.and_le_right

theorem le_of_sizeFits {G : Controller} {ep : UsbEp} {desc : EpDesc} (h : sizeFits G ep desc = true)
    (hcontrol : xferType desc ≠ xferControl) (hbulk : xferType desc ≠ xferBulk) :
    0x7ff &&& desc.wMaxPacketSize ≤ ep.maxpacket := by
  have hperiodic : xferType desc = xferInt ∨ xferType desc = xferIsoc := by
    have htypes : ∀ a : Fin 256, UInt8.ofFin a &&& 0x03 ≠ xferControl →
        UInt8.ofFin a &&& 0x03 ≠ xferBulk →
          UInt8.ofFin a &&& 0x03 = xferInt ∨ UInt8.ofFin a &&& 0x03 = xferIsoc := by
      decide +kernel
    exact htypes desc.bmAttributes.toFin hcontrol hbulk
  rw [sizeFits] at h
  split_ifs at h
  · rw [Bool.and_eq_true, Bool.and_eq_true, Bool.not_eq_true', decide_eq_false_iff_not] at h
    exact UInt16.not_lt.mp h.1.1

theorem numbered_matched {G : Controller} {ep : UsbEp} {desc : EpDesc} {n : ℕ} (hn : n < 16)
    (hcontrol : xferType desc ≠ xferControl) (hsize : sizeFits G ep (desc.sized ep) = true)
    (hnumber : ¬ep.Unnumbered → n = strtoul (ep.name.drop 2)) :
    Matched ep desc ((desc.sized ep).numbered ep (UInt8.ofNat n)) ∧
      ((desc.sized ep).numbered ep (UInt8.ofNat n)).number = n := by
  obtain ⟨haddr, hattr⟩ := sized_keeps desc ep
  have htype : xferType (desc.sized ep) = xferType desc := by rw [xferType, xferType, hattr]
  obtain ⟨hdir, hnum⟩ := address_bits desc.bEndpointAddress n hn
  have hgot : ((desc.sized ep).numbered ep (UInt8.ofNat n)).number = n := by
    rw [EpDesc.number, EpDesc.numbered]
    dsimp only
    rw [haddr, hnum]
  refine ⟨⟨?_, hattr, ?_, fun h => hgot.trans (hnumber h)⟩, hgot⟩
  · rw [EpDesc.numbered]
    dsimp only
    rw [haddr, hdir]
  · rw [EpDesc.numbered]
    dsimp only
    rw [htype]
    split_ifs with hbulk
    · have hmin : min ep.maxpacket 64 ≤ ep.maxpacket := by
        change (if ep.maxpacket ≤ 64 then ep.maxpacket else 64) ≤ ep.maxpacket
        split_ifs with hle
        · exact UInt16.le_refl _
        · exact UInt16.le_of_lt (UInt16.not_le.mp hle)
      exact UInt16.le_trans (and_le _) hmin
    · rw [← htype] at hbulk hcontrol
      exact le_of_sizeFits hsize hcontrol hbulk

theorem epMatches_claimed (G : Controller) (ep : UsbEp) (desc : EpDesc) (epnum : UInt32) :
    epMatches G true ep desc epnum = (false, desc, epnum) := if_pos (by simp)

/-- **A match.** -/
theorem epMatches_true {G : Controller} {claimed : Bool} {ep : UsbEp} {desc got : EpDesc}
    {epnum epnum' : UInt32} (hroom : epnum.toNat + 1 < 2 ^ 32)
    (hep : (charAt ep.name 2).isDigit = true → strtoul (ep.name.drop 2) < 16)
    (h : epMatches G claimed ep desc epnum = (true, got, epnum')) :
    claimed = false ∧ Matched ep desc got ∧ epnum.toNat ≤ epnum'.toNat ∧
      (ep.Unnumbered → epnum.toNat < got.number ∧ got.number = epnum'.toNat ∧ got.number ≤ 15) := by
  rw [epMatches] at h
  dsimp only at h
  split_ifs at h with hcheck hsize hdigit hfull
  · cases h
  · cases h
  · simp only [Bool.or_eq_true, not_or, beq_iff_eq] at hcheck
    rw [Bool.not_eq_true, Bool.not_eq_false'] at hsize
    cases h
    obtain ⟨hmatched, -⟩ := numbered_matched (hep hdigit) hcheck.1.1.2 hsize fun _ => rfl
    refine ⟨by simpa using hcheck.1.1.1, hmatched, le_rfl, fun hun => ?_⟩
    rw [UsbEp.Unnumbered, hdigit] at hun
    cases hun
  · cases h
  · simp only [Bool.or_eq_true, not_or, beq_iff_eq] at hcheck
    rw [Bool.not_eq_true, Bool.not_eq_false'] at hsize
    cases h
    have hun : ep.Unnumbered := by simpa [UsbEp.Unnumbered] using hdigit
    have hle : (epnum + 1).toNat ≤ 15 := by
      rwa [UInt32.not_lt, UInt32.le_iff_toNat_le] at hfull
    obtain ⟨hmatched, hnum⟩ := numbered_matched (Nat.lt_succ_of_le hle) hcheck.1.1.2 hsize
      fun h => absurd hun h
    have hsucc := Bytes.toNat_succ hroom
    refine ⟨by simpa using hcheck.1.1.1, hmatched, by omega, fun _ => ?_⟩
    rw [hnum]
    exact ⟨by omega, rfl, hle⟩

/-- An endpoint that is turned down leaves direction and type alone. -/
theorem epMatches_false {G : Controller} {claimed : Bool} {ep : UsbEp} {desc got : EpDesc}
    {epnum epnum' : UInt32} (hroom : epnum.toNat + 1 < 2 ^ 32)
    (h : epMatches G claimed ep desc epnum = (false, got, epnum')) :
    got.bEndpointAddress &&& 0x80 = desc.bEndpointAddress &&& 0x80 ∧
      got.bmAttributes = desc.bmAttributes ∧ epnum.toNat ≤ epnum'.toNat ∧
        epnum'.toNat ≤ epnum.toNat + 1 := by
  obtain ⟨haddr, hattr⟩ := sized_keeps desc ep
  rw [epMatches] at h
  dsimp only at h
  split_ifs at h with hcheck hsize hdigit hfull
  · cases h
    exact ⟨rfl, rfl, le_rfl, Nat.le_succ _⟩
  · cases h
    exact ⟨by rw [haddr], hattr, le_rfl, Nat.le_succ _⟩
  · cases h
  · cases h
    have hsucc := Bytes.toNat_succ hroom
    refine ⟨?_, hattr, by omega, by omega⟩
    dsimp only
    rw [haddr, UInt8.and_assoc]
    rfl
  · cases h

/-! ## The search -/

theorem not_mem_of_tryEps {G : Controller} {claimed : List ℕ} {i : ℕ} (is : List ℕ) (desc : EpDesc)
    (epnum : UInt32) (h : (tryEps G claimed is desc epnum).1 = some i) : i ∉ claimed := by
  induction is generalizing desc epnum with
  | nil => cases h
  | cons j is ih =>
    rw [tryEps] at h
    cases hj : G.eps[j]? with
    | none =>
      rw [hj] at h
      exact ih desc epnum h
    | some ep =>
      rw [hj] at h
      dsimp only at h
      cases hclaimed : claimed.contains j with
      | true =>
        rw [hclaimed, epMatches_claimed] at h
        exact ih desc epnum h
      | false =>
        split at h
        · cases h
          simpa using hclaimed
        · exact ih _ _ h

/-- **A search.** -/
theorem tryEps_spec {G : Controller} (hG : G.Named) (claimed : List ℕ) :
    ∀ (is : List ℕ) (desc : EpDesc) (epnum : UInt32) {found : Option ℕ} {got : EpDesc}
      {epnum' : UInt32}, epnum.toNat + is.length < 2 ^ 32 →
      tryEps G claimed is desc epnum = (found, got, epnum') → epnum.toNat ≤ epnum'.toNat ∧
        ∀ i, found = some i → ∃ ep, G.eps[i]? = some ep ∧ Matched ep desc got ∧
          (ep.Unnumbered → epnum.toNat < got.number ∧ got.number = epnum'.toNat ∧ got.number ≤ 15)
  | [], desc, epnum, found, got, epnum', _, h => by
    cases h
    exact ⟨le_rfl, nofun⟩
  | i :: is, desc, epnum, found, got, epnum', hroom, h => by
    rw [List.length_cons] at hroom
    rw [tryEps] at h
    cases hi : G.eps[i]? with
    | none =>
      rw [hi] at h
      exact tryEps_spec hG claimed is desc epnum (by omega) h
    | some ep =>
      rw [hi] at h
      dsimp only at h
      obtain ⟨ok, desc₁, epnum₁, hmatch⟩ :
          ∃ ok desc₁ epnum₁, epMatches G (claimed.contains i) ep desc epnum = (ok, desc₁, epnum₁) :=
        ⟨_, _, _, rfl⟩
      rw [hmatch] at h
      cases ok with
      | true =>
        cases h
        obtain ⟨-, hmatched, hle, hnum⟩ :=
          epMatches_true (by omega) (hG ep (List.mem_of_getElem? hi)) hmatch
        refine ⟨hle, fun j hj => ?_⟩
        cases hj
        exact ⟨ep, hi, hmatched, hnum⟩
      | false =>
        obtain ⟨hdir, hattr, hle, hsucc⟩ := epMatches_false (by omega) hmatch
        obtain ⟨hle', hrest⟩ := tryEps_spec hG claimed is desc₁ epnum₁ (by omega) h
        refine ⟨hle.trans hle', fun j hj => ?_⟩
        obtain ⟨ep', hget, hmatched, hnum⟩ := hrest j hj
        refine ⟨ep', hget, ⟨hmatched.direction.trans hdir, hmatched.attributes.trans hattr,
          hmatched.size, hmatched.number⟩, fun hun => ?_⟩
        obtain ⟨hlt, heq, h15⟩ := hnum hun
        exact ⟨lt_of_le_of_lt hle hlt, heq, h15⟩

/-- The answers that `scale_bind` gets when it asks for the descriptors `desc`. -/
theorem unclaimed_autoconf (G : Controller) (desc : ℕ → EpDesc) (epnum : ℕ → UInt32)
    {f : ScaleUsb.Faults}
    (hf : ∀ i claimed, f.autoconfig i claimed =
      (usbEpAutoconfig G claimed (desc i) (epnum i)).1) : ScaleUsb.BindDev.Unclaimed f := by
  intro i claimed ep hep
  rw [hf] at hep
  exact not_mem_of_tryEps _ _ _ hep

theorem length_preferred (G : Controller) (desc : EpDesc) : (preferred G desc).length ≤ 2 := by
  have hfind : ∀ name, (findEp G name).length ≤ 1 := fun name => by
    rw [findEp, Option.length_toList]
    split_ifs <;> omega
  rw [preferred]
  split_ifs
  · rw [List.length_append]
    exact Nat.add_le_add (hfind _) (hfind _)
  · exact (hfind _).trans (by decide)
  · exact (hfind _).trans (by decide)
  · exact Nat.zero_le _
  · exact Nat.zero_le _

/-! ## Runs -/

/-- The endpoint of a choice has no number in its name. -/
def Choice.Dynamic (G : Controller) (c : Choice) : Prop :=
  ∃ ep, G.eps[c.ep]? = some ep ∧ ep.Unnumbered

/-- What holds of the choices since the last reset. -/
structure Pool.Inv (G : Controller) (p : Pool) : Prop where
  matched : ∀ c ∈ p.choices, ∃ ep, G.eps[c.ep]? = some ep ∧ Matched ep c.want c.got
  range : ∀ c ∈ p.choices, c.Dynamic G →
    1 ≤ c.got.number ∧ c.got.number ≤ 15 ∧ c.got.number ≤ p.epnum.toNat
  numbers : p.choices.Pairwise fun c c' =>
    c.Dynamic G → c'.Dynamic G → c'.got.number < c.got.number

theorem Pool.inv_init (G : Controller) : Pool.init.Inv G :=
  ⟨nofun, nofun, List.Pairwise.nil⟩

theorem Pool.Inv.step {G : Controller} (hG : G.Named) {p p' : Pool} {a : PoolAct}
    (hp : p.Inv G) (hroom : p.Room G a) (h : poolStep G p a = some p') : p'.Inv G := by
  cases a with
  | reset =>
    cases h
    exact Pool.inv_init G
  | claim ep =>
    cases h
    exact ⟨hp.matched, hp.range, hp.numbers⟩
  | autoconfig desc =>
    obtain ⟨found, got, epnum, hfound⟩ : ∃ found got epnum,
        usbEpAutoconfig G p.claimed desc p.epnum = (found, got, epnum) :=
      ⟨_, _, _, rfl⟩
    have htries : p.epnum.toNat + (preferred G desc ++ List.range G.eps.length).length <
        2 ^ 32 := by
      have hpref := length_preferred G desc
      rw [Pool.Room] at hroom
      rw [List.length_append, List.length_range]
      omega
    obtain ⟨hle, hsome⟩ := tryEps_spec hG _ _ _ _ htries hfound
    rw [poolStep, hfound] at h
    cases found with
    | none =>
      cases h
      refine ⟨hp.matched, fun c hc hdyn => ?_, hp.numbers⟩
      obtain ⟨hone, h15, hle'⟩ := hp.range c hc hdyn
      exact ⟨hone, h15, hle'.trans hle⟩
    | some i =>
      cases h
      obtain ⟨ep, hget, hmatched, hnum⟩ := hsome i rfl
      have hun : ∀ ep', G.eps[i]? = some ep' → ep'.Unnumbered → ep.Unnumbered := by
        intro ep' hget' hun'
        rw [hget] at hget'
        cases hget'
        exact hun'
      refine ⟨List.forall_mem_cons.mpr ⟨⟨ep, hget, hmatched⟩, hp.matched⟩, ?_, ?_⟩
      · refine List.forall_mem_cons.mpr ⟨fun hdyn => ?_, fun c hc hdyn => ?_⟩
        · obtain ⟨ep', hget', hun'⟩ := hdyn
          obtain ⟨hlt, heq, h15⟩ := hnum (hun ep' hget' hun')
          dsimp only
          omega
        · obtain ⟨hone, h15, hle'⟩ := hp.range c hc hdyn
          exact ⟨hone, h15, hle'.trans hle⟩
      · refine List.pairwise_cons.mpr ⟨fun c hc hdyn hdyn' => ?_, hp.numbers⟩
        obtain ⟨ep', hget', hun'⟩ := hdyn
        obtain ⟨hlt, -, -⟩ := hnum (hun ep' hget' hun')
        exact lt_of_le_of_lt (hp.range c hc hdyn').2.2 hlt

/-- A search after all claims finds an endpoint that was not chosen. -/
theorem nodup_step {G : Controller} {p p' : Pool} {a : PoolAct}
    (hp : (p.choices.map (·.ep)).Nodup) (hclaimed : p.AllClaimed a)
    (h : poolStep G p a = some p') : (p'.choices.map (·.ep)).Nodup := by
  cases a with
  | reset =>
    cases h
    exact List.nodup_nil
  | claim ep =>
    cases h
    exact hp
  | autoconfig desc =>
    rw [poolStep] at h
    split at h
    next i got epnum hfound =>
      cases h
      have hfree : i ∉ p.claimed := not_mem_of_tryEps _ desc p.epnum (congrArg Prod.fst hfound)
      refine List.nodup_cons.mpr ⟨fun hmem => ?_, hp⟩
      obtain ⟨c, hc, rfl⟩ := List.mem_map.mp hmem
      exact hfree (hclaimed c hc)
    next =>
      cases h
      exact hp

/-- **Endpoints are chosen.** In every run of searches, claims and resets on a controller whose
endpoint numbers are below 16, in which `epnum` does not wrap: since the last reset no endpoint was
chosen twice, if the callers claim what they get before the next search; every descriptor kept its
direction and type, has the number of its endpoint if it has one, and promises no larger packets
than the endpoint takes; endpoints without a number got different numbers from 1 to 15. -/
theorem endpoints_chosen (G : Controller) (hG : G.Named) (acts : List PoolAct) (p : Pool)
    (hroom : Lts.Meets (poolStep G) (Pool.Room G) .init acts)
    (h : Lts.exec (poolStep G) .init acts = some p) :
    (Lts.Meets (poolStep G) Pool.AllClaimed .init acts → (p.choices.map (·.ep)).Nodup) ∧
      (∀ c ∈ p.choices, ∃ ep, G.eps[c.ep]? = some ep ∧ Matched ep c.want c.got ∧
        (ep.Unnumbered → 1 ≤ c.got.number ∧ c.got.number ≤ 15)) ∧
      p.choices.Pairwise fun c c' =>
        c.Dynamic G → c'.Dynamic G → c.got.number ≠ c'.got.number := by
  have hp := Lts.exec_induction (fun p a p' hp hr h => Pool.Inv.step hG hp hr h)
    (Pool.inv_init G) hroom h
  refine ⟨fun hclaimed => ?_, fun c hc => ?_, hp.numbers.imp fun hlt hdyn hdyn' => ?_⟩
  · have hinit : (Pool.init.choices.map (·.ep)).Nodup := List.nodup_nil
    exact Lts.exec_induction (I := fun p : Pool => (p.choices.map (·.ep)).Nodup)
      (fun p a p' hp hc h => nodup_step hp hc h) hinit hclaimed h
  · obtain ⟨ep, hget, hmatched⟩ := hp.matched c hc
    refine ⟨ep, hget, hmatched, fun hun => ?_⟩
    obtain ⟨hone, h15, -⟩ := hp.range c hc ⟨ep, hget, hun⟩
    exact ⟨hone, h15⟩
  · exact (hlt hdyn hdyn').ne'

/-- A controller with two endpoints that have no numbers. -/
def twoEps : Controller := ⟨[⟨"ep-a".toList, 512⟩, ⟨"ep-b".toList, 512⟩], true, false, true, false⟩

/-- A driver claims each endpoint it gets. -/
def claimTwo : List PoolAct :=
  [.autoconfig ⟨0x80, 2, 0⟩, .claim 0, .autoconfig ⟨0x00, 2, 0⟩, .claim 1]

theorem endpoints_chosen_two : ∃ p, Lts.exec (poolStep twoEps) .init claimTwo = some p ∧
    p.choices.map (·.got) = [⟨0x02, 2, 64⟩, ⟨0x81, 2, 64⟩] ∧ (p.choices.map (·.ep)).Nodup := by
  have hnamed : twoEps.Named := by
    unfold Controller.Named twoEps
    decide
  exact ⟨_, rfl, by decide,
    (endpoints_chosen twoEps hnamed claimTwo _ (by decide) rfl).1 (by decide)⟩

-- without a claim the same endpoint is found again
example : (Lts.exec (poolStep twoEps) .init
    [.autoconfig ⟨0x80, 2, 0⟩, .autoconfig ⟨0x80, 2, 0⟩]).map
      (fun p => p.choices.map (·.ep)) = some [0, 0] := by
  decide

end LddExample.Composite
