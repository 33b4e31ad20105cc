import LddExample.Net.Options

/-!
# The packets that the mirror module copies

`is_ports` knows the data ports by 32 bits, the bit of a device being its `ifindex` modulo 32.

* `named`: the devices named before the `@`.
* **`isPorts_iff`**: after a successful `option_setup`, `is_ports` is 1 for the devices that share
  their bit with a named one.
* **`isPorts_named_iff`**: it tells a device rightly exactly when the device is named or shares its
  bit with none that is.
* **`mirrorFunc_dev`**: the packets of these devices are sent to the mirror port.
-/

namespace LddExample.Net

/-- The data ports of the option text. -/
def named (devGetByName : List UInt8 → Option NetDevice) (opt : List UInt8) : List NetDevice :=
  (fields opt).filterMap devGetByName

theorem and_portBit_ne_zero (bits : BitVec 32) (dev : NetDevice) :
    bits &&& portBit dev ≠ 0 ↔ bits.getLsbD (dev.ifindex % 32) = true := by
  have hlt : dev.ifindex % 32 < 32 := Nat.mod_lt _ (by decide)
  rw [portBit, ← BitVec.twoPow_eq, BitVec.and_twoPow]
  cases bits.getLsbD (dev.ifindex % 32) with
  | false => simp
  | true =>
    refine iff_of_true (fun hzero => ?_) rfl
    have hbit : (BitVec.twoPow 32 (dev.ifindex % 32)).getLsbD (dev.ifindex % 32) = true := by
      rw [BitVec.getLsbD_twoPow]
      simp [hlt]
    rw [if_pos rfl] at hzero
    rw [hzero] at hbit
    simp at hbit

section Success

variable {devGetByName : List UInt8 → Option NetDevice} {opt tail : List UInt8} {s : Mirror}

theorem optionSetup_ret_zero (h0 : 0 ∉ opt)
    (h : optionSetup devGetByName (Mirror.init (opt ++ 0 :: tail)) = .ret s 0) :
    ∃ m s₀, devGetByName (mirrorName opt) = some m ∧ s.mirror = some m ∧
      s.ifindexBits = s₀.ifindexBits ∧ PortsSet devGetByName (mirrorName opt) (fields opt) s₀ := by
  have hat : atSign ∈ opt := by
    by_contra hat
    rw [optionSetup_no_at devGetByName h0 hat] at h
    cases h
  have hends := optionSetup_ends devGetByName h0 hat tail
  generalize optionSetup devGetByName (Mirror.init (opt ++ 0 :: tail)) = r at h hends
  cases hends with
  | busy | noPort | overrun => cases h
  | @past s₀ toPtr hset hmem hto =>
    rw [setMirror, hto] at h
    cases hdev : devGetByName (mirrorName opt) with
    | none =>
      rw [hdev] at h
      cases h
    | some m =>
      rw [hdev] at h
      cases h
      exact ⟨m, s₀, rfl, rfl, rfl, hset⟩

/-- **`is_ports` sees the `ifindex` modulo 32.** -/
theorem isPorts_iff (h0 : 0 ∉ opt)
    (h : optionSetup devGetByName (Mirror.init (opt ++ 0 :: tail)) = .ret s 0) (dev : NetDevice) :
    s.isPorts dev = 1 ↔ ∃ p ∈ named devGetByName opt, p.ifindex % 32 = dev.ifindex % 32 := by
  obtain ⟨m, s₀, -, -, hbits, hset⟩ := optionSetup_ret_zero h0 h
  have hlt : dev.ifindex % 32 < 32 := Nat.mod_lt _ (by decide)
  rw [named, ← hset.gets, ← hset.bits _ hlt, ← hbits, ← and_portBit_ne_zero, Mirror.isPorts]
  split_ifs with hne
  · exact iff_of_true rfl hne
  · exact iff_of_false (by decide) hne

/-- **Every packet of these devices is sent to the mirror port, and no other one.** -/
theorem mirrorFunc_dev (h0 : 0 ∉ opt)
    (h : optionSetup devGetByName (Mirror.init (opt ++ 0 :: tail)) = .ret s 0) (skb : SkBuff)
    (dev : NetDevice) :
    (mirrorFunc s skb dev true).map SkBuff.dev =
      if s.isPorts dev = 1 then devGetByName (mirrorName opt) else none := by
  obtain ⟨m, s₀, hm, hmirror, -, -⟩ := optionSetup_ret_zero h0 h
  rw [mirrorFunc, hmirror, hm, if_pos (rfl : true = true)]
  split_ifs
  · rfl
  · rfl

end Success

/-- **`is_ports` tells a device rightly exactly when the device is named or no named one has the
same `ifindex` modulo 32.** -/
theorem isPorts_named_iff (devGetByName : List UInt8 → Option NetDevice) (opt tail : List UInt8)
    (s : Mirror) (dev : NetDevice) (h0 : 0 ∉ opt)
    (h : optionSetup devGetByName (Mirror.init (opt ++ 0 :: tail)) = .ret s 0) :
    (s.isPorts dev = 1 ↔ dev ∈ named devGetByName opt) ↔
      (dev ∈ named devGetByName opt ∨
        ∀ p ∈ named devGetByName opt, p.ifindex % 32 ≠ dev.ifindex % 32) := by
  rw [isPorts_iff h0 h]
  by_cases hdev : dev ∈ named devGetByName opt
  · exact iff_of_true (iff_of_true ⟨dev, hdev, rfl⟩ hdev) (.inl hdev)
  · simp only [hdev, iff_false, false_or, not_exists, not_and, ne_eq]

/-- With the data port `e`, whose `ifindex` is 2, a device with `ifindex` 5 is told apart. -/
theorem isPorts_manyPorts :
    0 ∉ manyPorts 1 ∧
      ∃ s, optionSetup twoDevices (Mirror.init (manyPorts 1 ++ 0 :: [])) = .ret s 0 ∧
        (s.isPorts ⟨5⟩ = 1 ↔ ⟨5⟩ ∈ named twoDevices (manyPorts 1)) :=
  ⟨by decide, _, rfl,
    (isPorts_named_iff twoDevices (manyPorts 1) [] _ ⟨5⟩ (by decide) rfl).2 (by decide)⟩

/-- A device with `ifindex` 34 is not. -/
theorem isPorts_aliased :
    ∃ s, optionSetup twoDevices (Mirror.init (manyPorts 1 ++ 0 :: [])) = .ret s 0 ∧
      s.isPorts ⟨34⟩ = 1 ∧ ⟨34⟩ ∉ named twoDevices (manyPorts 1) :=
  ⟨_, rfl, rfl, by decide⟩

end LddExample.Net
