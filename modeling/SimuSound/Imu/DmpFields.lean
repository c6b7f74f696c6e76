import SimuSound.Imu.DmpFraming

/-!
# DmpFields — what the caller finds in the structure after a frame

The DMP writes numbers big-endian; the decoder permutes their bytes into unions whose members the
target reads little-endian.  The permutations know nothing of the padding between the members.
-/

namespace SimuSound.Imu

open Reasoning

-- indices of the bytes of a union
scoped instance (priority := high) neZeroSix : NeZero 6 := ⟨Nat.succ_ne_zero 5⟩
scoped instance (priority := high) neZeroEight : NeZero 8 := ⟨Nat.succ_ne_zero 7⟩
scoped instance (priority := high) neZeroTwelve : NeZero 12 := ⟨Nat.succ_ne_zero 11⟩
scoped instance (priority := high) neZeroSixteen : NeZero 16 := ⟨Nat.succ_ne_zero 15⟩

/-! ## Numbers in memory -/

/-- An `int16_t` at its two addresses. -/
def leShort (b₀ b₁ : Byte) : BitVec 16 := b₁ ++ b₀

/-- An `int32_t` at its four addresses. -/
def leLong (b₀ b₁ b₂ b₃ : Byte) : BitVec 32 := (b₃ ++ b₂) ++ (b₁ ++ b₀)

/-- The byte of weight `256 ^ k`. -/
def byteOf {n : Nat} (w : BitVec n) (k : Nat) : Byte := w.extractLsb' (8 * k) 8

theorem leShort_byteOf (w : BitVec 16) : leShort (byteOf w 0) (byteOf w 1) = w := by
  have hnext : 8 * 1 = 8 * 0 + 8 := rfl
  unfold leShort byteOf
  rw [BitVec.extractLsb'_append_extractLsb'_eq_extractLsb' hnext, BitVec.extractLsb'_eq_self]

theorem leLong_byteOf (w : BitVec 32) :
    leLong (byteOf w 0) (byteOf w 1) (byteOf w 2) (byteOf w 3) = w := by
  have hnext : 8 * 1 = 8 * 0 + 8 := rfl
  have hnext₃ : 8 * 3 = 8 * 2 + 8 := rfl
  have hhalf : 8 * 2 = 8 * 0 + (8 + 8) := rfl
  unfold leLong byteOf
  rw [BitVec.extractLsb'_append_extractLsb'_eq_extractLsb' hnext,
    BitVec.extractLsb'_append_extractLsb'_eq_extractLsb' hnext₃,
    BitVec.extractLsb'_append_extractLsb'_eq_extractLsb' hhalf, BitVec.extractLsb'_eq_self]

theorem append_inj {n m : Nat} {a b : BitVec n} {c d : BitVec m} :
    a ++ c = b ++ d ↔ a = b ∧ c = d := by
  constructor
  · intro h
    have hleft := congrArg (BitVec.extractLsb' m n) h
    have hright := congrArg (BitVec.extractLsb' 0 m) h
    rw [BitVec.extractLsb'_append_eq_left, BitVec.extractLsb'_append_eq_left] at hleft
    rw [BitVec.extractLsb'_append_eq_right, BitVec.extractLsb'_append_eq_right] at hright
    exact ⟨hleft, hright⟩
  · rintro ⟨rfl, rfl⟩
    rfl

theorem leLong_eq_iff {b₀ b₁ b₂ b₃ : Byte} {w : BitVec 32} :
    leLong b₀ b₁ b₂ b₃ = w ↔
      b₀ = byteOf w 0 ∧ b₁ = byteOf w 1 ∧ b₂ = byteOf w 2 ∧ b₃ = byteOf w 3 := by
  conv_lhs => rw [← leLong_byteOf w]
  unfold leLong
  rw [append_inj, append_inj, append_inj]
  tauto

/-- `X`, `Y` and `Z`, or `Q1`, `Q2` and `Q3`. -/
structure Xyz (w : Nat) where
  x : BitVec w
  y : BitVec w
  z : BitVec w
  deriving DecidableEq

/-- The members of `icm_20948_DMP_data_t` that a frame may set. -/
inductive Field
  | rawAccel
  | rawGyro
  | compass
  | als
  | quat6
  | quat9
  | pQuat6
  | geomag
  | pressure
  | compassCalibr
  | pedometerTimestamp
  | accelAccuracy
  | gyroAccuracy
  | compassAccuracy
  | pickup
  | activityRecognition
  | secondaryOnOff
  deriving DecidableEq

namespace Field

def payload : Field → Payload
  | rawAccel => accelPayload
  | rawGyro => gyroPayload
  | compass => compassPayload
  | als => alsPayload
  | quat6 => quat6Payload
  | quat9 => quat9Payload
  | pQuat6 => pQuat6Payload
  | geomag => geomagPayload
  | pressure => pressurePayload
  | compassCalibr => compassCalibrPayload
  | pedometerTimestamp => stepDetectorPayload
  | accelAccuracy => accelAccuracyPayload
  | gyroAccuracy => gyroAccuracyPayload
  | compassAccuracy => compassAccuracyPayload
  | pickup => pickupPayload
  | activityRecognition => activityRecogPayload
  | secondaryOnOff => secondaryOnOffPayload

/-- In the order of the decoder. -/
def all : List Field := [rawAccel, rawGyro, compass, als, quat6, quat9, pQuat6, geomag, pressure,
  compassCalibr, pedometerTimestamp, accelAccuracy, gyroAccuracy, compassAccuracy, pickup,
  activityRecognition, secondaryOnOff]

theorem payload_all : all.map payload = payloads := rfl

theorem mem_all (k : Field) : k ∈ all := by
  cases k <;> decide

theorem nodup_all : all.Nodup := by decide

theorem payload_mem (k : Field) : k.payload ∈ payloads := by
  rw [← payload_all]
  exact List.mem_map_of_mem k.mem_all

/-- The storage of a field. -/
@[reducible] def Slot : Field → Type
  | rawAccel | compass | pQuat6 | pressure => Bytes 6
  | rawGyro | quat6 | compassCalibr => Bytes 12
  | als | activityRecognition => Bytes 8
  | quat9 | geomag => Bytes 16
  | pedometerTimestamp => BitVec 32
  | accelAccuracy | gyroAccuracy | compassAccuracy | pickup => BitVec 16
  | secondaryOnOff => Bytes 2

def slot : (k : Field) → DmpData → k.Slot
  | rawAccel => DmpData.rawAccel
  | rawGyro => DmpData.rawGyro
  | compass => DmpData.compass
  | als => DmpData.als
  | quat6 => DmpData.quat6
  | quat9 => DmpData.quat9
  | pQuat6 => DmpData.pQuat6
  | geomag => DmpData.geomag
  | pressure => DmpData.pressure
  | compassCalibr => DmpData.compassCalibr
  | pedometerTimestamp => DmpData.pedometerTimestamp
  | accelAccuracy => DmpData.accelAccuracy
  | gyroAccuracy => DmpData.gyroAccuracy
  | compassAccuracy => DmpData.compassAccuracy
  | pickup => DmpData.pickup
  | activityRecognition => DmpData.activityRecognition
  | secondaryOnOff => DmpData.secondaryOnOff

/-- The named members of a field; those of `Raw_Gyro` are the values and the biases. -/
@[reducible] def Member : Field → Type
  | rawAccel | compass | pQuat6 => Xyz 16
  | rawGyro => Xyz 16 × Xyz 16
  | als => Bytes 8
  | quat6 | compassCalibr => Xyz 32
  | quat9 | geomag => Xyz 32 × BitVec 16
  | pressure => Bytes 6
  | pedometerTimestamp => BitVec 32
  | accelAccuracy | gyroAccuracy | compassAccuracy | pickup | secondaryOnOff => BitVec 16
  | activityRecognition => Byte × Byte × BitVec 32

/-- The members of the struct in a union, with natural alignment: `Timestamp` is at 4. -/
def view : (k : Field) → k.Slot → k.Member
  | rawAccel, b | compass, b | pQuat6, b =>
    ⟨leShort (b 0) (b 1), leShort (b 2) (b 3), leShort (b 4) (b 5)⟩
  | rawGyro, b =>
    (⟨leShort (b 0) (b 1), leShort (b 2) (b 3), leShort (b 4) (b 5)⟩,
      ⟨leShort (b 6) (b 7), leShort (b 8) (b 9), leShort (b 10) (b 11)⟩)
  | als, b | pressure, b => b
  | quat6, b | compassCalibr, b =>
    ⟨leLong (b 0) (b 1) (b 2) (b 3), leLong (b 4) (b 5) (b 6) (b 7),
      leLong (b 8) (b 9) (b 10) (b 11)⟩
  | quat9, b | geomag, b =>
    (⟨leLong (b 0) (b 1) (b 2) (b 3), leLong (b 4) (b 5) (b 6) (b 7),
      leLong (b 8) (b 9) (b 10) (b 11)⟩, leShort (b 12) (b 13))
  | pedometerTimestamp, w => w
  | accelAccuracy, w | gyroAccuracy, w | compassAccuracy, w | pickup, w => w
  | activityRecognition, b => (b 0, b 1, leLong (b 4) (b 5) (b 6) (b 7))
  | secondaryOnOff, b => leShort (b 0) (b 1)

def member (k : Field) (data : DmpData) : k.Member := k.view (k.slot data)

/-- The payload with the members `m` on the wire. -/
def wire : (k : Field) → k.Member → Bytes k.payload.part.len
  | rawAccel, m | compass, m | pQuat6, m =>
    ![byteOf m.x 1, byteOf m.x 0, byteOf m.y 1, byteOf m.y 0, byteOf m.z 1, byteOf m.z 0]
  | rawGyro, m =>
    ![byteOf m.1.x 1, byteOf m.1.x 0, byteOf m.1.y 1, byteOf m.1.y 0, byteOf m.1.z 1,
      byteOf m.1.z 0, byteOf m.2.x 1, byteOf m.2.x 0, byteOf m.2.y 1, byteOf m.2.y 0,
      byteOf m.2.z 1, byteOf m.2.z 0]
  | als, m | pressure, m => m
  | quat6, m | compassCalibr, m =>
    ![byteOf m.x 3, byteOf m.x 2, byteOf m.x 1, byteOf m.x 0, byteOf m.y 3, byteOf m.y 2,
      byteOf m.y 1, byteOf m.y 0, byteOf m.z 3, byteOf m.z 2, byteOf m.z 1, byteOf m.z 0]
  | quat9, m | geomag, m =>
    ![byteOf m.1.x 3, byteOf m.1.x 2, byteOf m.1.x 1, byteOf m.1.x 0, byteOf m.1.y 3,
      byteOf m.1.y 2, byteOf m.1.y 1, byteOf m.1.y 0, byteOf m.1.z 3, byteOf m.1.z 2,
      byteOf m.1.z 1, byteOf m.1.z 0, byteOf m.2 1, byteOf m.2 0]
  | pedometerTimestamp, w => ![byteOf w 3, byteOf w 2, byteOf w 1, byteOf w 0]
  | accelAccuracy, w | gyroAccuracy, w | compassAccuracy, w | pickup, w | secondaryOnOff, w =>
    ![byteOf w 1, byteOf w 0]
  | activityRecognition, m =>
    ![m.1, m.2.1, byteOf m.2.2 3, byteOf m.2.2 2, byteOf m.2.2 1, byteOf m.2.2 0]

/-! ## Storing a field -/

theorem foldl_update {n : Nat} (fifoBytes : Bytes n) (l : List (Fin n)) (bytes : Bytes n)
    (j : Fin n) : l.foldl (fun bytes i => Function.update bytes i (fifoBytes i)) bytes j =
      if j ∈ l then fifoBytes j else bytes j := by
  induction l generalizing bytes with
  | nil => rfl
  | cons i l ih =>
    rw [List.foldl_cons, ih]
    by_cases hl : j ∈ l
    · rw [if_pos hl, if_pos (List.mem_cons_of_mem i hl)]
    · rw [if_neg hl]
      by_cases hj : j = i
      · rw [if_pos (hj ▸ List.mem_cons_self), hj, Function.update_self]
      · have hnot : j ∉ i :: l := fun h => (List.mem_cons.mp h).elim hj hl
        rw [if_neg hnot, Function.update_of_ne hj]

theorem storeBytes_id {n : Nat} (fifoBytes bytes : Bytes n) :
    storeBytes id fifoBytes bytes = fifoBytes := by
  funext j
  exact (foldl_update fifoBytes _ bytes j).trans (if_pos (List.mem_finRange j))

/-- A field is stored in its own slot. -/
theorem slot_store_other {k k' : Field} (h : k ≠ k') (b : Bytes k'.payload.part.len)
    (data : DmpData) : k.slot (k'.payload.part.store b data) = k.slot data := by
  cases k <;> cases k' <;> first | rfl | exact absurd rfl h

/-- And only what was in the slot shows through. -/
theorem slot_store_congr {k : Field} (b : Bytes k.payload.part.len) {data data' : DmpData}
    (h : k.slot data = k.slot data') :
    k.slot (k.payload.part.store b data) = k.slot (k.payload.part.store b data') := by
  cases k
  case rawAccel | compass | pQuat6 => exact congrArg (storeBytes pQuat6ByteOrdering b) h
  case rawGyro => exact congrArg (storeBytes rawGyroByteOrdering b) h
  case als | pressure => exact congrArg (storeBytes id b) h
  case quat6 | compassCalibr => exact congrArg (storeBytes quat6ByteOrdering b) h
  case quat9 | geomag => exact congrArg (storeBytes quat9ByteOrdering b) h
  case activityRecognition => exact congrArg (storeBytes activityRecognitionByteOrdering b) h
  case secondaryOnOff => exact congrArg (storeBytes secondaryOnOffByteOrdering b) h
  -- numbers do not keep anything of what was there
  case pedometerTimestamp | accelAccuracy | gyroAccuracy | compassAccuracy | pickup => rfl

/-- The permutations undo the order on the wire, `Timestamp` apart. -/
theorem member_store {k : Field} (hk : k ≠ activityRecognition) (m : k.Member) (data : DmpData) :
    k.member (k.payload.part.store (k.wire m) data) = m := by
  cases k
  case rawAccel | compass | pQuat6 =>
    change Xyz.mk (leShort (byteOf m.x 0) (byteOf m.x 1))
      (leShort (byteOf m.y 0) (byteOf m.y 1)) (leShort (byteOf m.z 0) (byteOf m.z 1)) = m
    simp only [leShort_byteOf]
  case rawGyro =>
    change (Xyz.mk (leShort (byteOf m.1.x 0) (byteOf m.1.x 1))
      (leShort (byteOf m.1.y 0) (byteOf m.1.y 1)) (leShort (byteOf m.1.z 0) (byteOf m.1.z 1)),
      Xyz.mk (leShort (byteOf m.2.x 0) (byteOf m.2.x 1))
      (leShort (byteOf m.2.y 0) (byteOf m.2.y 1)) (leShort (byteOf m.2.z 0) (byteOf m.2.z 1))) = m
    simp only [leShort_byteOf]
  case als | pressure => exact storeBytes_id m _
  case quat6 | compassCalibr =>
    change Xyz.mk (leLong (byteOf m.x 0) (byteOf m.x 1) (byteOf m.x 2) (byteOf m.x 3))
      (leLong (byteOf m.y 0) (byteOf m.y 1) (byteOf m.y 2) (byteOf m.y 3))
      (leLong (byteOf m.z 0) (byteOf m.z 1) (byteOf m.z 2) (byteOf m.z 3)) = m
    simp only [leLong_byteOf]
  case quat9 | geomag =>
    change (Xyz.mk (leLong (byteOf m.1.x 0) (byteOf m.1.x 1) (byteOf m.1.x 2) (byteOf m.1.x 3))
      (leLong (byteOf m.1.y 0) (byteOf m.1.y 1) (byteOf m.1.y 2) (byteOf m.1.y 3))
      (leLong (byteOf m.1.z 0) (byteOf m.1.z 1) (byteOf m.1.z 2) (byteOf m.1.z 3)),
      leShort (byteOf m.2 0) (byteOf m.2 1)) = m
    simp only [leLong_byteOf, leShort_byteOf]
  case pedometerTimestamp => exact leLong_byteOf m
  case accelAccuracy | gyroAccuracy | compassAccuracy | pickup | secondaryOnOff =>
    exact leShort_byteOf m
  case activityRecognition => exact absurd rfl hk

/-- `Timestamp` is read two bytes beyond where its first byte was put. -/
theorem member_store_activity (m : activityRecognition.Member) (data : DmpData) :
    activityRecognition.member
        (activityRecogPayload.part.store (activityRecognition.wire m) data) =
      (m.1, m.2.1, leLong (byteOf m.2.2 2) (byteOf m.2.2 3) (data.activityRecognition 6)
        (data.activityRecognition 7)) := rfl

end Field

/-! ## The fields of a frame -/

/-- A value for every member, to be sent where the headers say so. -/
abbrev Values := (k : Field) → k.Member

def Values.filled (v : Values) (k : Field) : Filled := ⟨k.payload, k.wire (v k)⟩

/-- The frame that sends `v`. -/
def Values.frame (v : Values) (header header2 footer : BitVec 16)
    (habsent : anyBit header header2Bitmap = false → header2 = 0) : Frame where
  header := header
  header2 := header2
  body := Field.all.map v.filled
  footer := footer
  lists := rfl
  absent := habsent

theorem slot_storeTo_other (v : Values) {k j : Field} (h : k ≠ j) (data : DmpData) :
    k.slot (Filled.storeTo data (v.filled j)) = k.slot data := by
  unfold Filled.storeTo
  split
  · exact Field.slot_store_other h _ data
  · rfl

/-- Fields that are not among `ks` stay as they were. -/
theorem slot_foldl_other (v : Values) {ks : List Field} {k : Field} (hk : k ∉ ks) (data : DmpData) :
    k.slot ((ks.map v.filled).foldl Filled.storeTo data) = k.slot data := by
  induction ks generalizing data with
  | nil => rfl
  | cons j ks ih =>
    have hj : k ≠ j := fun h => hk (h ▸ List.mem_cons_self)
    rw [List.map_cons, List.foldl_cons, ih fun h => hk (List.mem_cons_of_mem j h)]
    exact slot_storeTo_other v hj data

/-- An announced field ends up as storing it alone would leave it. -/
theorem slot_foldl (v : Values) {ks : List Field} (hnodup : ks.Nodup) {k : Field} (hk : k ∈ ks)
    {data heads : DmpData} (hheads : SameHeads data heads)
    (hbit : k.payload.announced heads) :
    k.slot ((ks.map v.filled).foldl Filled.storeTo data) =
      k.slot (k.payload.part.store (k.wire (v k)) data) := by
  induction ks generalizing data with
  | nil => exact absurd hk List.not_mem_nil
  | cons j ks ih =>
    obtain ⟨hj, hnodup⟩ := List.nodup_cons.mp hnodup
    rw [List.map_cons, List.foldl_cons]
    rcases List.mem_cons.mp hk with rfl | hk
    · have hhere : k.payload.announced data :=
        (announced_congr _ k.payload_mem _ _ hheads).trans hbit
      rw [slot_foldl_other v hj]
      exact congrArg k.slot (if_pos hhere)
    · have hne : k ≠ j := fun h => hj (h ▸ hk)
      have hheads' : SameHeads (Filled.storeTo data (v.filled j)) heads :=
        (storeTo_heads (x := v.filled j) j.payload_mem data).trans hheads
      rw [ih hnodup hk hheads', Field.slot_store_congr _ (slot_storeTo_other v hne data)]

/-- The headers of `f` announce the field. -/
def Field.sent (k : Field) (f : Frame) : Bool := k.payload.announced (f.heads DmpData.zero)

theorem member_fill (v : Values) {header header2 footer : BitVec 16}
    {habsent : anyBit header header2Bitmap = false → header2 = 0} {k : Field}
    (hsent : k.sent (v.frame header header2 footer habsent)) (data : DmpData) :
    k.member ((v.frame header header2 footer habsent).fill data) =
      k.member (k.payload.part.store (k.wire (v k)) data) := by
  let f := v.frame header header2 footer habsent
  have hfooter : ∀ data : DmpData, k.slot { data with footer := footer } = k.slot data := by
    intro data
    cases k <;> rfl
  have hheads : k.slot (f.heads data) = k.slot data := by
    cases k <;> rfl
  have hsame : SameHeads (f.heads data) (f.heads DmpData.zero) := ⟨rfl, rfl⟩
  have hslot : k.slot (f.fill data) = k.slot (k.payload.part.store (k.wire (v k)) data) := by
    calc k.slot (f.fill data)
        = k.slot ((Field.all.map v.filled).foldl Filled.storeTo (f.heads data)) := hfooter _
      _ = k.slot (k.payload.part.store (k.wire (v k)) (f.heads data)) :=
        slot_foldl v Field.nodup_all k.mem_all hsame hsent
      _ = k.slot (k.payload.part.store (k.wire (v k)) data) := Field.slot_store_congr _ hheads
  exact congrArg k.view hslot

/-- The upper half of the timestamp is its lower half too and is already where `Timestamp` has its
upper half. -/
def TimestampInPlace (t : BitVec 32) (old : Bytes 8) : Prop :=
  byteOf t 2 = byteOf t 0 ∧ byteOf t 3 = byteOf t 1 ∧ old 6 = byteOf t 2 ∧ old 7 = byteOf t 3

/-- Every member that a complete frame sends is read back by the caller, `Timestamp` only when it is
in place already. -/
theorem members_decoded_iff (v : Values) (header header2 footer : BitVec 16)
    (habsent : anyBit header header2Bitmap = false → header2 = 0) {pdev : Device}
    (havail : pdev.dmpFirmwareAvailable = true) {rest : List Byte} {schedule : List Nat}
    {call : DmpCall} {s' : Device × Inflow Byte}
    (hstep : DmpStep
      (pdev, ⟨(v.frame header header2 footer habsent).encode ++ rest, [], schedule⟩) call s') :
    (∀ k : Field, k.sent (v.frame header header2 footer habsent) →
      k.member call.out.val = v k) ↔
    (Field.activityRecognition.sent (v.frame header header2 footer habsent) →
      TimestampInPlace (v .activityRecognition).2.2 call.data.activityRecognition) := by
  have hval : call.out.val = (v.frame header header2 footer habsent).fill call.data := by
    rw [(quiet_call hstep havail rfl rfl).2.2.2]
  have hactivity : Field.activityRecognition.sent (v.frame header header2 footer habsent) →
      (Field.activityRecognition.member call.out.val = v .activityRecognition ↔
        TimestampInPlace (v .activityRecognition).2.2 call.data.activityRecognition) := by
    intro hsent
    let m := v .activityRecognition
    have hread : Field.activityRecognition.member call.out.val =
        (m.1, m.2.1, leLong (byteOf m.2.2 2) (byteOf m.2.2 3)
          (call.data.activityRecognition 6) (call.data.activityRecognition 7)) := by
      rw [hval, member_fill v hsent]
      exact Field.member_store_activity m call.data
    rw [hread]
    constructor
    · intro h
      exact leLong_eq_iff.mp (congrArg (fun m => m.2.2) h)
    · intro h
      exact congrArg (fun t => (m.1, m.2.1, t)) (leLong_eq_iff.mpr h)
  constructor
  · exact fun hall hsent => (hactivity hsent).mp (hall _ hsent)
  · intro htimestamp k hsent
    by_cases hk : k = .activityRecognition
    · subst hk
      exact (hactivity hsent).mpr (htimestamp hsent)
    · rw [hval, member_fill v hsent]
      exact Field.member_store hk (v k) call.data

/-- An activity report with this timestamp, and nothing else. -/
def Values.report (timestamp : BitVec 32) : Values
  | .rawAccel | .compass | .pQuat6 => ⟨0, 0, 0⟩
  | .rawGyro => (⟨0, 0, 0⟩, ⟨0, 0, 0⟩)
  | .quat6 | .compassCalibr => ⟨0, 0, 0⟩
  | .quat9 | .geomag => (⟨0, 0, 0⟩, 0)
  | .als | .pressure => fun _ => 0
  | .pedometerTimestamp => 0
  | .accelAccuracy | .gyroAccuracy | .compassAccuracy | .pickup | .secondaryOnOff => 0
  | .activityRecognition => (0x01, 0x02, timestamp)

/-- A timestamp of 1 is read as 0. -/
theorem timestamp_misread :
    ¬ ∀ (v : Values) (header header2 footer : BitVec 16)
      (habsent : anyBit header header2Bitmap = false → header2 = 0) (pdev : Device)
      (schedule : List Nat) (call : DmpCall) (s' : Device × Inflow Byte),
      pdev.dmpFirmwareAvailable = true →
      DmpStep (pdev, ⟨(v.frame header header2 footer habsent).encode, [], schedule⟩) call s' →
      ∀ k : Field, k.sent (v.frame header header2 footer habsent) →
        k.member call.out.val = v k := by
  intro h
  let pdev : Device := ⟨true, true, 255, 0, 0, 0, 0, 0, 0, 0, 0, 0, 0, 0⟩
  let v := Values.report 1
  let q : Inflow Byte := ⟨(v.frame 0x0008 0x0080 0 (by decide)).encode, [], []⟩
  let call := (readDmpData DmpData.zero).run pdev
  have hcap : q.stream.length ≤ fifoCapacity := by decide
  have hstep : DmpStep (pdev, q) ⟨DmpData.zero, (Prog.run sensor call q).1.1⟩
      ((Prog.run sensor call q).1.2, (Prog.run sensor call q).2) :=
    ⟨_, (exec_sensor call hcap).1, Prog.allGood_trace good_sensor _ _⟩
  have hread := h v 0x0008 0x0080 0 (by decide) pdev [] _ _ rfl hstep .activityRecognition
    (by decide)
  exact absurd hread (by decide)

/-- The same report with a timestamp that is the same everywhere. -/
theorem members_decoded_iff_zero :
    let pdev : Device := ⟨true, true, 255, 0, 0, 0, 0, 0, 0, 0, 0, 0, 0, 0⟩
    let f := (Values.report 0).frame 0x0008 0x0080 0 (by decide)
    let out := Prog.run sensor ((readDmpData DmpData.zero).run pdev) ⟨f.encode ++ [], [], []⟩
    (∀ k : Field, k.sent f → k.member out.1.1.val = Values.report 0 k) ↔
      (Field.activityRecognition.sent f → TimestampInPlace 0 DmpData.zero.activityRecognition) := by
  intro pdev f out
  have hcap : (Inflow.mk (f.encode ++ []) [] []).stream.length ≤ fifoCapacity := by decide
  have hstep : DmpStep (pdev, ⟨f.encode ++ [], [], []⟩) ⟨DmpData.zero, out.1.1⟩
      (out.1.2, out.2) :=
    ⟨_, (exec_sensor ((readDmpData DmpData.zero).run pdev) hcap).1,
      Prog.allGood_trace good_sensor _ _⟩
  clear_value out
  exact members_decoded_iff (Values.report 0) 0x0008 0x0080 0 (by decide) rfl hstep

end SimuSound.Imu
