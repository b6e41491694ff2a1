import HAL9000.Lib.Reach
import HAL9000.CommonLib.Base

/-!
# Enabling and disabling a network device

Port of the request `IOCTL_NET_SET_DEVICE_STATUS` (`NetworkPort/src/network_dispatch.c`) and of
`EthChangeDeviceStatus` (`Eth_82574L/src/eth_82574L_operations.c`). The control registers hold what was
written to them. A setting is a byte, and the bit `Enable` of a register takes its lowest bit.

The transmit register is given the setting for receiving, so a request that changes the setting for
sending is carried out only if it asks for the same for both.
-/

namespace HAL9000.NetworkPort
open Lib

/-- (C `NETWORK_DEVICE_STATUS`). -/
structure NetworkDeviceStatus where
  rxEnabled : UInt8
  txEnabled : UInt8
deriving DecidableEq, Repr

/-- The two control registers, and the status that the miniport device records (C `ETH_DEVICE`). -/
structure EthDevice where
  receiveControlRegister : BitVec 32
  transmitControlRegister : BitVec 32
  deviceStatus : NetworkDeviceStatus
deriving DecidableEq, Repr

/-- The bit `Enable`, the second one of both registers. -/
def enable (raw : BitVec 32) : Nat := (raw.getLsbD 1).toNat

def setEnable (raw : BitVec 32) (newStatus : UInt8) : BitVec 32 :=
  raw &&& ~~~2#32 ||| BitVec.ofNat 32 (newStatus.toNat % 2) <<< 1

/-- (C `_EthChangeRxStatus`). -/
def ethChangeRxStatus (d : EthDevice) (newStatus : UInt8) : EthDevice :=
  { d with receiveControlRegister := setEnable d.receiveControlRegister newStatus }

/-- (C `_EthChangeTxStatus`). -/
def ethChangeTxStatus (d : EthDevice) (newStatus : UInt8) : EthDevice :=
  { d with transmitControlRegister := setEnable d.transmitControlRegister newStatus }

/-- (C `EthChangeDeviceStatus`). -/
def ethChangeDeviceStatus (d : EthDevice) (deviceStatus : NetworkDeviceStatus) : EthDevice :=
  let newRxStatus := deviceStatus.rxEnabled
  let newTxStatus := deviceStatus.txEnabled
  let d := if newRxStatus ^^^ d.deviceStatus.rxEnabled ≠ 0 then ethChangeRxStatus d newRxStatus else d
  if newTxStatus ^^^ d.deviceStatus.txEnabled ≠ 0 then ethChangeTxStatus d newRxStatus else d

/-- (C `_NetDispatchChangeDeviceStatus`). -/
def netDispatchChangeDeviceStatus (d : EthDevice) (deviceStatus : NetworkDeviceStatus) : Status × EthDevice :=
  (.success, { ethChangeDeviceStatus d deviceStatus with deviceStatus })

structure StatusRequest where
  inputBufferLength : Nat
  buffer : NetworkDeviceStatus
deriving DecidableEq, Repr

/-- The size of C `NET_GET_SET_DEVICE_STATUS`. -/
def sizeofDeviceStatus : Nat := 2

/-- The case `IOCTL_NET_SET_DEVICE_STATUS` (C `NetPortDeviceControl`). -/
def ioctlNetSetDeviceStatus (d : EthDevice) (r : StatusRequest) : Status × EthDevice :=
  if r.inputBufferLength < sizeofDeviceStatus then (.bufferTooSmall, d)
  else netDispatchChangeDeviceStatus d r.buffer

/-- The hardware and the record are as in `s`. -/
structure EthDevice.Set (d : EthDevice) (s : NetworkDeviceStatus) : Prop where
  rx : enable d.receiveControlRegister = s.rxEnabled.toNat
  tx : enable d.transmitControlRegister = s.txEnabled.toNat
  recorded : d.deviceStatus = s

/-- What a request that succeeds must do. -/
def CarriedOut (d : EthDevice) (r : StatusRequest) : Prop :=
  (ioctlNetSetDeviceStatus d r).1 = .success →
    (ioctlNetSetDeviceStatus d r).2.Set r.buffer ∧
    (r.buffer = d.deviceStatus → (ioctlNetSetDeviceStatus d r).2 = d)

/-- The requests that are carried out: the setting for receiving is 0 or 1, and so is that for sending
    unless it stays as it is. -/
def Uniform (d : EthDevice) (r : StatusRequest) : Prop :=
  r.inputBufferLength < sizeofDeviceStatus ∨ r.buffer.rxEnabled ≤ 1 ∧
    (r.buffer.txEnabled ≠ d.deviceStatus.txEnabled → r.buffer.txEnabled = r.buffer.rxEnabled)

instance (d : EthDevice) (r : StatusRequest) : Decidable (Uniform d r) := by
  unfold Uniform
  infer_instance

lemma enable_setEnable (raw : BitVec 32) (s : UInt8) : enable (setEnable raw s) = s.toNat % 2 := by
  have hlow : (BitVec.ofNat 32 (s.toNat % 2))[0] = decide (s.toNat % 2 = 1) := by
    simp [BitVec.getElem_eq_testBit_toNat]
  have hbit : (setEnable raw s).getLsbD 1 = decide (s.toNat % 2 = 1) := by simp [setEnable, hlow]
  rw [enable, hbit]
  rcases Nat.mod_two_eq_zero_or_one s.toNat with h | h <;> simp [h]

/-- The registers that a request touches are those whose setting it changes. -/
lemma ethChangeDeviceStatus_eq (d : EthDevice) (s : NetworkDeviceStatus) : ethChangeDeviceStatus d s =
    { d with
      receiveControlRegister := if s.rxEnabled = d.deviceStatus.rxEnabled then d.receiveControlRegister
        else setEnable d.receiveControlRegister s.rxEnabled
      transmitControlRegister := if s.txEnabled = d.deviceStatus.txEnabled then d.transmitControlRegister
        else setEnable d.transmitControlRegister s.rxEnabled } := by
  simp only [ethChangeDeviceStatus, ethChangeRxStatus, ethChangeTxStatus, ne_eq, UInt8.xor_eq_zero_iff]
  split_ifs <;> simp_all

/-- A register of which the setting `old` was true, and which is given the lowest bit of `new` if a request
    changes its setting to `s`. -/
lemma enable_changed {raw : BitVec 32} {old s new : UInt8} (hold : enable raw = old.toNat) :
    enable (if s = old then raw else setEnable raw new) = s.toNat ↔ s = old ∨ new.toNat % 2 = s.toNat := by
  split_ifs with h
  · simp [h, hold]
  · simp [h, enable_setEnable]

/-- If the registers are as recorded, the requests that are carried out are the uniform ones. -/
lemma carriedOut_iff {d : EthDevice} {r : StatusRequest} (hd : d.Set d.deviceStatus) :
    CarriedOut d r ↔ Uniform d r := by
  unfold CarriedOut Uniform ioctlNetSetDeviceStatus
  split_ifs with hlen
  · simp [hlen]
  have hlt : d.deviceStatus.rxEnabled.toNat < 2 := hd.rx ▸ Bool.toNat_lt _
  have hset : (netDispatchChangeDeviceStatus d r.buffer).2.Set r.buffer ↔
      (r.buffer.rxEnabled = d.deviceStatus.rxEnabled ∨
        r.buffer.rxEnabled.toNat % 2 = r.buffer.rxEnabled.toNat) ∧
      (r.buffer.txEnabled = d.deviceStatus.txEnabled ∨
        r.buffer.rxEnabled.toNat % 2 = r.buffer.txEnabled.toNat) := by
    rw [netDispatchChangeDeviceStatus, ethChangeDeviceStatus_eq, ← enable_changed hd.rx, ← enable_changed hd.tx]
    exact ⟨fun h => ⟨h.rx, h.tx⟩, fun h => ⟨h.1, h.2, rfl⟩⟩
  have hsame : r.buffer = d.deviceStatus → (netDispatchChangeDeviceStatus d r.buffer).2 = d := by
    intro h
    simp [netDispatchChangeDeviceStatus, ethChangeDeviceStatus_eq, h]
  have hsucc : (netDispatchChangeDeviceStatus d r.buffer).1 = .success := rfl
  rw [hset, iff_true_intro hsame, and_true, forall_prop_of_true hsucc, or_iff_right hlen, UInt8.le_iff_toNat_le]
  simp only [← UInt8.toNat_inj, ne_eq, UInt8.toNat_one]
  omega

/-- After every request that succeeds the hardware and the record are as it asks, and a request for the
    present settings changes nothing, exactly if no request changes the setting for sending to another one
    than it asks for receiving (and the settings are 0 or 1). -/
theorem deviceStatus_follows_iff {d : EthDevice} (hd : d.Set d.deviceStatus) (rs : List StatusRequest) :
    Along (fun d r => (ioctlNetSetDeviceStatus d r).2) CarriedOut d rs ↔
      Along (fun d r => (ioctlNetSetDeviceStatus d r).2) Uniform d rs := by
  refine along_iff hd (fun _ _ => carriedOut_iff) ?_
  intro d r hd hr
  by_cases hlen : r.inputBufferLength < sizeofDeviceStatus
  · rwa [ioctlNetSetDeviceStatus, if_pos hlen]
  · have hset := (carriedOut_iff hd).mpr hr
    simp only [CarriedOut, ioctlNetSetDeviceStatus, if_neg hlen] at hset ⊢
    exact (hset rfl).1

/-- A device as it is initialised: both of its settings are on. -/
def enabledDevice : EthDevice := ⟨2, 2, ⟨1, 1⟩⟩

theorem deviceStatus_follows_off_on : Along (fun d r => (ioctlNetSetDeviceStatus d r).2) CarriedOut
    enabledDevice [⟨2, ⟨0, 0⟩⟩, ⟨2, ⟨0, 0⟩⟩, ⟨2, ⟨1, 1⟩⟩] :=
  (deviceStatus_follows_iff ⟨rfl, rfl, rfl⟩ _).mpr ⟨by decide, by decide, by decide, trivial⟩

/-- Only sending is to be switched off, and it stays on. -/
theorem deviceStatus_sends_on : (ioctlNetSetDeviceStatus enabledDevice ⟨2, ⟨1, 0⟩⟩).1 = .success ∧
    (ioctlNetSetDeviceStatus enabledDevice ⟨2, ⟨1, 0⟩⟩).2 = ⟨2, 2, ⟨1, 0⟩⟩ ∧ enable 2 = 1 := by
  decide

end HAL9000.NetworkPort
