import ErgoDock.Lib.RawMemory
import ErgoDock.Nanopb

/-! # The messages of the cloud protocol (`qs_protobuf.c`)

Every message type has an object, a record of the caller's, and a message structure of nanopb.
Encoding assigns the `int32` members to the structure and leaves the arrays to the callbacks
`string_write` and `bytes_write`; decoding leaves them to `string_read` and `bytes_read`, which
store from the head of the array on, and assigns the members last.  The functions differ in their
tables only (`QsMessage`).

The object is raw memory from its address on, with what stands behind it: a store behind an array
goes to the members that follow, and a read behind it takes theirs. -/

namespace ErgoDock

open RawMemory

/-! ### Tables -/

/-- The members of the message structures (`keesoncloud.pb.h`). -/
inductive MsgMember where
  | deviceID | timestamp
  | softwareMajorVersion | softwareMinorVersion | softwareReviseVersion
  | firmwareLenth | firmwareStartOffset | firmwareEndOffset
  | command
  | sequence | status | heartbeat | breathRate
  | onOffBed | mmin | mmean | nsd | npd | sbp | dbp
  | calResult | startTime | totalSleepTime | sleepEfficiency | sleepQuality | turnoverTimes
  | sleepLatency | offBedTimes | cRSD | slop1 | slop2 | oSATimes
  | data | dataLen | cmd | stat | statLen
deriving DecidableEq

/-- The members of the objects (`qs_protobuf.h`). -/
inductive ObjMember where
  | deviceId | timestamp
  | softwareMajorVer | softwareMinorVer | softwareReviseVer
  | firmwareLen | firmwareStartOffset | firmwareEndOffset
  | command
  | sequence | status | heartbeat | breathRate
  | onOffBed | mmin | mmean | nsd | npd | sbp | dbp
  | calResult | startTime | totalSleepTime | sleepEfficiency | sleepQuality | turnoverTimes
  | sleepLatency | offBedTimes | cRSD | slop1 | slop2 | oSATimes
  | data | dataLen | cmd | stat | statLen
deriving DecidableEq

inductive MemberType where
  | int32
  | char (n : ℕ)
  | uint8 (n : ℕ)
deriving DecidableEq

def MemberType.size : MemberType → ℕ
  | int32 => 4
  | char n => n
  | uint8 n => n

/-- A callback and the array it is given: `STRING_ENCODE` and `STRING_DECODE`, or `BYTES_ENCODE`
and `BYTES_DECODE`. -/
inductive QsCallback where
  | string (arg : ObjMember)
  | bytes (arg : ObjMember)
deriving DecidableEq

def QsCallback.arg : QsCallback → ObjMember
  | string arg => arg
  | bytes arg => arg

/-- The members that are assigned, of a message structure and of an object. -/
def staticMember (f : PbField MsgMember) : Option MsgMember :=
  match f.type with
  | .int32 => some f.member
  | _ => none

def int32Member (p : ObjMember × MemberType) : Option ObjMember :=
  match p.2 with
  | .int32 => some p.1
  | _ => none

/-- The members that callbacks work for. -/
def callbackMember (f : PbField MsgMember) : Option MsgMember :=
  match f.type with
  | .int32 => none
  | _ => some f.member

def arrayMember (p : ObjMember × MemberType) : Option QsCallback :=
  match p.2 with
  | .int32 => none
  | .char _ => some (.string p.1)
  | .uint8 _ => some (.bytes p.1)

section member
variable {f : PbField MsgMember}

theorem staticMember_of_int32 (h : f.type = .int32) : staticMember f = some f.member := by
  rw [staticMember, h]

theorem staticMember_of_ne (h : f.type ≠ .int32) : staticMember f = none := by
  unfold staticMember
  split
  · exact absurd ‹_› h
  · rfl

theorem callbackMember_of_int32 (h : f.type = .int32) : callbackMember f = none := by
  rw [callbackMember, h]

theorem callbackMember_of_ne (h : f.type ≠ .int32) : callbackMember f = some f.member := by
  unfold callbackMember
  split
  · exact absurd ‹_› h
  · rfl

end member

/-- The members of an object with their sizes. -/
def objLayout (members : List (ObjMember × MemberType)) : List (ObjMember × ℕ) :=
  members.map fun p => (p.1, p.2.size)

/-- A message type: its `fields`, its object, and what its two functions assign and set up. -/
structure QsMessage where
  fields : List (PbField MsgMember)
  members : List (ObjMember × MemberType)
  assigns : List (MsgMember × ObjMember)
  callbacks : List (MsgMember × QsCallback)
  tags_nodup : (fields.map (·.tag)).Nodup := by decide
  tags_range : ∀ f ∈ fields, 0 < f.tag ∧ f.tag < 2 ^ 29 := by decide
  fields_nodup : (fields.map (·.member)).Nodup := by decide
  members_nodup : (members.map Prod.fst).Nodup := by decide
  /-- Every static field is assigned to and from an `int32` member, and every `int32` member. -/
  assigns_fields : (assigns.map Prod.fst).Perm (fields.filterMap staticMember) := by decide
  assigns_members : (assigns.map Prod.snd).Perm (members.filterMap int32Member) := by decide
  /-- Every other field has its callback, and every array. -/
  callbacks_fields : callbacks.map Prod.fst = fields.filterMap callbackMember := by decide
  callbacks_members : callbacks.map Prod.snd = members.filterMap arrayMember := by decide
  /-- No array stands behind that of a `bytes` field. -/
  bytes_last : ∀ c ∈ callbacks, c.2 = .bytes c.2.arg → ∀ d ∈ callbacks, d.2 ≠ c.2 →
    offset (objLayout members) d.2.arg + size (objLayout members) d.2.arg ≤
      offset (objLayout members) c.2.arg := by decide

def int32Field (tag : ℕ) (member : MsgMember) : PbField MsgMember := ⟨tag, .int32, member⟩

def stringField (tag : ℕ) (member : MsgMember) : PbField MsgMember := ⟨tag, .string, member⟩

def bytesField (tag : ℕ) (member : MsgMember) : PbField MsgMember := ⟨tag, .bytes, member⟩

/-- `QS_PB_DEVICE_ID_SIZE`. -/
def qsPbDeviceIdSize : ℕ := 24

/-- `QS_PB_CLI_COMMAND_SIZE`. -/
def qsPbCliCommandSize : ℕ := 128

/-- `QS_PB_RAW_DATA_LEGNTH`. -/
def qsPbRawDataLegnth : ℕ := 2048

/-- `QS_PB_BED_CONTRL_SIZE`. -/
def qsPbBedContrlSize : ℕ := 512

/-- `qs_pb_ver_post_encode` and `qs_pb_ver_post_decode`. -/
def qsPbVerPost : QsMessage where
  fields := [stringField 1 .deviceID, int32Field 2 .timestamp,
    int32Field 3 .softwareMajorVersion, int32Field 4 .softwareMinorVersion,
    int32Field 5 .softwareReviseVersion]
  members := [(.deviceId, .char qsPbDeviceIdSize), (.timestamp, .int32),
    (.softwareMajorVer, .int32), (.softwareMinorVer, .int32), (.softwareReviseVer, .int32)]
  assigns := [(.timestamp, .timestamp), (.softwareMajorVersion, .softwareMajorVer),
    (.softwareMinorVersion, .softwareMinorVer), (.softwareReviseVersion, .softwareReviseVer)]
  callbacks := [(.deviceID, .string .deviceId)]

/-- `qs_pb_token_post_encode` and `qs_pb_token_post_decode`. -/
def qsPbTokenPost : QsMessage where
  fields := [stringField 1 .deviceID, int32Field 2 .timestamp,
    int32Field 3 .softwareMajorVersion, int32Field 4 .softwareMinorVersion,
    int32Field 5 .softwareReviseVersion, int32Field 6 .firmwareLenth]
  members := [(.deviceId, .char qsPbDeviceIdSize), (.timestamp, .int32),
    (.softwareMajorVer, .int32), (.softwareMinorVer, .int32), (.softwareReviseVer, .int32),
    (.firmwareLen, .int32)]
  assigns := [(.timestamp, .timestamp), (.softwareMajorVersion, .softwareMajorVer),
    (.softwareMinorVersion, .softwareMinorVer), (.softwareReviseVersion, .softwareReviseVer),
    (.firmwareLenth, .firmwareLen)]
  callbacks := [(.deviceID, .string .deviceId)]

/-- `qs_pb_download_range_post_encode` and `qs_pb_download_range_post_decode`. -/
def qsPbDownloadRangePost : QsMessage where
  fields := [stringField 1 .deviceID, int32Field 2 .timestamp, int32Field 3 .firmwareLenth,
    int32Field 4 .firmwareStartOffset, int32Field 5 .firmwareEndOffset]
  members := [(.deviceId, .char qsPbDeviceIdSize), (.timestamp, .int32), (.firmwareLen, .int32),
    (.firmwareStartOffset, .int32), (.firmwareEndOffset, .int32)]
  assigns := [(.timestamp, .timestamp), (.firmwareLenth, .firmwareLen),
    (.firmwareStartOffset, .firmwareStartOffset), (.firmwareEndOffset, .firmwareEndOffset)]
  callbacks := [(.deviceID, .string .deviceId)]

/-- `qs_pb_cli_command_encode` and `qs_pb_cli_command_decode`. -/
def qsPbCliCommand : QsMessage where
  fields := [stringField 1 .deviceID, int32Field 2 .timestamp, stringField 3 .command]
  members := [(.deviceId, .char qsPbDeviceIdSize), (.timestamp, .int32),
    (.command, .char qsPbCliCommandSize)]
  assigns := [(.timestamp, .timestamp)]
  callbacks := [(.deviceID, .string .deviceId), (.command, .string .command)]

/-- `qs_pb_sleep_cycle_repo_encode` and `qs_pb_sleep_cycle_repo_decode`. -/
def qsPbSleepCycleRepo : QsMessage where
  fields := [stringField 1 .deviceID, int32Field 2 .timestamp, int32Field 3 .calResult,
    int32Field 4 .startTime, int32Field 5 .totalSleepTime, int32Field 6 .sleepEfficiency,
    int32Field 7 .sleepQuality, int32Field 8 .turnoverTimes, int32Field 9 .sleepLatency,
    int32Field 10 .offBedTimes, int32Field 11 .cRSD, int32Field 12 .slop1, int32Field 13 .slop2,
    int32Field 14 .oSATimes]
  members := [(.deviceId, .char qsPbDeviceIdSize), (.timestamp, .int32), (.calResult, .int32),
    (.startTime, .int32), (.totalSleepTime, .int32), (.sleepEfficiency, .int32),
    (.sleepQuality, .int32), (.turnoverTimes, .int32), (.sleepLatency, .int32),
    (.offBedTimes, .int32), (.cRSD, .int32), (.slop1, .int32), (.slop2, .int32),
    (.oSATimes, .int32)]
  assigns := [(.timestamp, .timestamp), (.calResult, .calResult), (.startTime, .startTime),
    (.totalSleepTime, .totalSleepTime), (.offBedTimes, .offBedTimes),
    (.turnoverTimes, .turnoverTimes), (.oSATimes, .oSATimes), (.slop1, .slop1), (.slop2, .slop2),
    (.cRSD, .cRSD), (.sleepEfficiency, .sleepEfficiency), (.sleepLatency, .sleepLatency),
    (.sleepQuality, .sleepQuality)]
  callbacks := [(.deviceID, .string .deviceId)]

/-- `qs_pb_sensor_5sec_info_encode` and `qs_pb_sensor_5sec_info_decode`. -/
def qsPbSensor5secInfo : QsMessage where
  fields := [stringField 1 .deviceID, int32Field 2 .timestamp, int32Field 3 .sequence,
    bytesField 4 .status, int32Field 5 .heartbeat, int32Field 6 .breathRate]
  members := [(.deviceId, .char qsPbDeviceIdSize), (.timestamp, .int32), (.sequence, .int32),
    (.status, .uint8 12), (.heartbeat, .int32), (.breathRate, .int32)]
  assigns := [(.timestamp, .timestamp), (.sequence, .sequence), (.heartbeat, .heartbeat),
    (.breathRate, .breathRate)]
  callbacks := [(.deviceID, .string .deviceId), (.status, .bytes .status)]

/-- `qs_pb_sensor_1min_info_encode` and `qs_pb_sensor_1min_info_decode`. -/
def qsPbSensor1minInfo : QsMessage where
  fields := [stringField 1 .deviceID, int32Field 2 .timestamp, int32Field 3 .sequence,
    int32Field 4 .onOffBed, int32Field 5 .heartbeat, int32Field 6 .breathRate, int32Field 7 .mmin,
    int32Field 8 .mmean, int32Field 9 .nsd, int32Field 10 .npd, int32Field 11 .sbp,
    int32Field 12 .dbp]
  members := [(.deviceId, .char qsPbDeviceIdSize), (.timestamp, .int32), (.sequence, .int32),
    (.onOffBed, .int32), (.heartbeat, .int32), (.breathRate, .int32), (.mmin, .int32),
    (.mmean, .int32), (.nsd, .int32), (.npd, .int32), (.sbp, .int32), (.dbp, .int32)]
  assigns := [(.timestamp, .timestamp), (.sequence, .sequence), (.onOffBed, .onOffBed),
    (.heartbeat, .heartbeat), (.breathRate, .breathRate), (.mmin, .mmin), (.mmean, .mmean),
    (.nsd, .nsd), (.npd, .npd), (.sbp, .sbp), (.dbp, .dbp)]
  callbacks := [(.deviceID, .string .deviceId)]

/-- The types of raw data, which are the same. -/
def rawDataMessage : QsMessage where
  fields := [stringField 1 .deviceID, int32Field 2 .timestamp, bytesField 3 .data,
    int32Field 4 .dataLen]
  members := [(.deviceId, .char qsPbDeviceIdSize), (.timestamp, .int32),
    (.data, .uint8 qsPbRawDataLegnth), (.dataLen, .int32)]
  assigns := [(.timestamp, .timestamp), (.dataLen, .dataLen)]
  callbacks := [(.deviceID, .string .deviceId), (.data, .bytes .data)]

/-- `qs_pb_state_raw_data_encode` and `qs_pb_state_raw_data_decode`. -/
def qsPbStateRawData : QsMessage := rawDataMessage

/-- `qs_pb_heartbeat_raw_data_encode` and `qs_pb_heartbeat_raw_data_decode`. -/
def qsPbHeartbeatRawData : QsMessage := rawDataMessage

/-- `qs_pb_breathrate_raw_data_encode` and `qs_pb_breathrate_raw_data_decode`. -/
def qsPbBreathrateRawData : QsMessage := rawDataMessage

/-- `qs_pb_movement_raw_data_encode` and `qs_pb_movement_raw_data_decode`. -/
def qsPbMovementRawData : QsMessage := rawDataMessage

/-- `qs_pb_snore_raw_data_encode` and `qs_pb_snore_raw_data_decode`. -/
def qsPbSnoreRawData : QsMessage := rawDataMessage

/-- `qs_pb_sbp_raw_data_encode` and `qs_pb_sbp_raw_data_decode`. -/
def qsPbSbpRawData : QsMessage := rawDataMessage

/-- `qs_pb_dbp_raw_data_encode` and `qs_pb_dbp_raw_data_decode`. -/
def qsPbDbpRawData : QsMessage := rawDataMessage

/-- `qs_pb_bed_cmd_encode` and `qs_pb_bed_cmd_decode`. -/
def qsPbBedCmd : QsMessage where
  fields := [stringField 1 .deviceID, int32Field 2 .timestamp, bytesField 3 .cmd]
  members := [(.deviceId, .char qsPbDeviceIdSize), (.timestamp, .int32),
    (.cmd, .uint8 qsPbBedContrlSize)]
  assigns := [(.timestamp, .timestamp)]
  callbacks := [(.deviceID, .string .deviceId), (.cmd, .bytes .cmd)]

/-- `qs_pb_bed_status_encode` and `qs_pb_bed_status_decode`. -/
def qsPbBedStatus : QsMessage where
  fields := [stringField 1 .deviceID, int32Field 2 .timestamp, bytesField 3 .stat,
    int32Field 4 .statLen]
  members := [(.deviceId, .char qsPbDeviceIdSize), (.timestamp, .int32),
    (.stat, .uint8 qsPbBedContrlSize), (.statLen, .int32)]
  assigns := [(.timestamp, .timestamp), (.statLen, .statLen)]
  callbacks := [(.deviceID, .string .deviceId), (.stat, .bytes .stat)]

/-- The message types of `qs_protobuf.c`. -/
def qsMessages : List QsMessage :=
  [qsPbVerPost, qsPbTokenPost, qsPbDownloadRangePost, qsPbCliCommand, qsPbSleepCycleRepo,
    qsPbStateRawData, qsPbSensor5secInfo, qsPbSensor1minInfo, qsPbHeartbeatRawData,
    qsPbBreathrateRawData, qsPbMovementRawData, qsPbSnoreRawData, qsPbSbpRawData, qsPbDbpRawData,
    qsPbBedCmd, qsPbBedStatus]

/-! ### Callbacks -/

/-- An object in memory, with the stores that were made through a `p_val`: whose it is, and at which
index. -/
structure ObjStore where
  mem : Mem
  stores : List (ObjMember × ℕ) := []

/-- `*(p_val + i) = value`, where `p_val` is the array of `dest` at `base`. -/
def ObjStore.store (o : ObjStore) (dest : ObjMember) (base i : ℕ) (value : UInt8) : ObjStore where
  mem := set o.mem (base + i) value
  stores := o.stores ++ [(dest, i)]

/-- The loop of `string_read`, at `i`. -/
def stringRead (dest : ObjMember) (base i : ℕ) (stream : List UInt8) (o : ObjStore) :
    Bool × ObjStore :=
  if stream = [] then (true, o)
  else
    match _ : Varint.decode 64 stream with
    | .error _ => (false, o)
    | .ok (value, rest) =>
      stringRead dest base (i + 1) rest (o.store dest base i (UInt8.ofNat value))
termination_by stream.length
decreasing_by exact Varint.decode_length ‹_›

/-- The loop of `bytes_read`, at `i`. -/
def bytesRead (dest : ObjMember) (base : ℕ) : ℕ → List UInt8 → ObjStore → Bool × ObjStore
  | _, [], o => (true, o)
  | i, byte :: stream, o => bytesRead dest base (i + 1) stream (o.store dest base i byte)

/-- The longest string of a 32-bit address space. -/
def stringSpace : ℕ := 2 ^ 32 - 1

/-- `string_write`. -/
def stringWrite (obj : Mem) (str : ℕ) : EncodeCallback MsgMember := fun field =>
  (pbEncodeTagForField field).andThen (pbEncodeString (cstring stringSpace obj str))

/-- `bytes_write`: the length is the first word of the array. -/
def bytesWrite (obj : Mem) (data : ℕ) : EncodeCallback MsgMember := fun field =>
  (pbEncodeTagForField field).andThen
    (pbEncodeString (slice obj (data + 4) (word obj data).toNat))

/-! ### Encoding and decoding -/

/-- `qs_ret_code_t`. -/
inductive QsRetCode where
  | success
  | errorInternal
  | timeout
  | noResource
deriving DecidableEq

/-- `status ? QS_SUCCESS : QS_ERROR_INTERNAL`. -/
def qsRetCode (status : Bool) : QsRetCode := if status then .success else .errorInternal

namespace QsMessage
variable (t : QsMessage)

/-- The address of a member of the object. -/
def addr (m : ObjMember) : ℕ := offset (objLayout t.members) m

/-- The size of a member. -/
def sizeOf (m : ObjMember) : ℕ := size (objLayout t.members) m

/-- The size of the object. -/
def objSize : ℕ := sizeof (objLayout t.members)

/-- The message structure that is encoded: zeroed, then assigned. -/
def assigned (obj : Mem) : MsgMember → BitVec 32 :=
  t.assigns.foldl (fun msg a => Function.update msg a.1 (word obj (t.addr a.2))) fun _ => 0

/-- Its callbacks. -/
def encoders (obj : Mem) (k : MsgMember) : Option (EncodeCallback MsgMember) :=
  (t.callbacks.lookup k).map fun
    | .string arg => stringWrite obj (t.addr arg)
    | .bytes arg => bytesWrite obj (t.addr arg)

/-- The encoding function of the type: its answer, and the stream with the buffer of `len`
bytes. -/
def encode (obj : Mem) (len : ℕ) : QsRetCode × PbOstream :=
  let r := pbEncode (t.assigned obj) (t.encoders obj) t.fields { maxSize := len }
  (qsRetCode r.1, r.2)

/-- A callback with its array. -/
def decoder : QsCallback → DecodeCallback ObjStore
  | .string arg => stringRead arg (t.addr arg) 0
  | .bytes arg => bytesRead arg (t.addr arg) 0

/-- The callbacks of the message structure that is decoded. -/
def decoders (k : MsgMember) : Option (DecodeCallback ObjStore) :=
  (t.callbacks.lookup k).map t.decoder

/-- The assignments after `pb_decode`, which come whatever its status is. -/
def assignBack (scalar : MsgMember → BitVec 32) (obj : Mem) : Mem :=
  t.assigns.foldl (fun m a => setWord m (t.addr a.2) (scalar a.1)) obj

/-- The decoding function of the type: its answer, and the object. -/
def decode (msg : List UInt8) (obj : Mem) : QsRetCode × ObjStore :=
  let r := pbDecode t.fields t.decoders msg { mem := obj }
  (qsRetCode r.1, { r.2.env with mem := t.assignBack r.2.scalar r.2.env.mem })

/-! ### What the tables say -/

variable {t}

theorem lookup_mem {k : MsgMember} {c : QsCallback} (h : t.callbacks.lookup k = some c) :
    (k, c) ∈ t.callbacks := by
  obtain ⟨l₁, l₂, hsplit, -⟩ := List.lookup_eq_some_iff.mp h
  rw [hsplit]
  exact List.mem_append_right _ (List.mem_cons_self ..)

theorem eq_of_int32Member {p : ObjMember × MemberType} {m : ObjMember}
    (h : int32Member p = some m) : p = (m, .int32) := by
  unfold int32Member at h
  split at h
  · rename_i hty
    exact Prod.ext (Option.some.inj h) hty
  · cases h

/-- What is assigned is an `int32` member. -/
theorem int32_of_assigns {a : MsgMember × ObjMember} (ha : a ∈ t.assigns) :
    (a.2, MemberType.int32) ∈ t.members := by
  have hmem := t.assigns_members.mem_iff.mp (List.mem_map_of_mem ha)
  obtain ⟨p, hp, hsome⟩ := List.mem_filterMap.mp hmem
  rw [← eq_of_int32Member hsome]
  exact hp

/-- No member is assigned twice. -/
theorem assigns_nodup : (t.assigns.map Prod.snd).Nodup := by
  refine t.assigns_members.nodup_iff.mpr (List.Nodup.filterMap ?_ t.members_nodup.of_map)
  intro p q m hp hq
  exact (eq_of_int32Member hp).trans (eq_of_int32Member hq).symm

/-- A callback has an array. -/
theorem array_of_callback {c : QsCallback} (hc : c ∈ t.callbacks.map Prod.snd) :
    ∃ ty, (c.arg, ty) ∈ t.members ∧ arrayMember (c.arg, ty) = some c := by
  rw [t.callbacks_members] at hc
  obtain ⟨p, hp, hsome⟩ := List.mem_filterMap.mp hc
  have harg : p.1 = c.arg := by
    unfold arrayMember at hsome
    split at hsome <;> cases hsome
    · rfl
    · rfl
  exact ⟨p.2, harg ▸ hp, harg ▸ hsome⟩

theorem type_unique {m : ObjMember} {ty ty' : MemberType} (h : (m, ty) ∈ t.members)
    (h' : (m, ty') ∈ t.members) : ty = ty' := by
  have he := List.inj_on_of_nodup_map t.members_nodup h h' rfl
  exact congrArg Prod.snd he

/-- Different callbacks have different arrays. -/
theorem arg_injective {c d : QsCallback} (hc : c ∈ t.callbacks.map Prod.snd)
    (hd : d ∈ t.callbacks.map Prod.snd) (h : c.arg = d.arg) : c = d := by
  obtain ⟨ty, hty, hsome⟩ := array_of_callback hc
  obtain ⟨ty', hty', hsome'⟩ := array_of_callback hd
  rw [h] at hty hsome
  rw [type_unique hty hty'] at hsome
  exact Option.some.inj (hsome.symm.trans hsome')

theorem arg_ne_assigned {c : QsCallback} (hc : c ∈ t.callbacks.map Prod.snd)
    {a : MsgMember × ObjMember} (ha : a ∈ t.assigns) : c.arg ≠ a.2 := by
  intro h
  obtain ⟨ty, hty, hsome⟩ := array_of_callback hc
  rw [h] at hty hsome
  rw [type_unique hty (int32_of_assigns ha)] at hsome
  cases hsome

theorem sizeOf_of_mem {m : ObjMember} {ty : MemberType} (h : (m, ty) ∈ t.members) :
    t.sizeOf m = ty.size := by
  refine size_of_mem ?_ (List.mem_map_of_mem h)
  unfold objLayout
  rw [List.map_map]
  exact t.members_nodup

theorem sizeOf_assigned {a : MsgMember × ObjMember} (ha : a ∈ t.assigns) : t.sizeOf a.2 = 4 :=
  sizeOf_of_mem (int32_of_assigns ha)

theorem addr_disjoint {m m' : ObjMember} (h : m ≠ m') :
    t.addr m + t.sizeOf m ≤ t.addr m' ∨ t.addr m' + t.sizeOf m' ≤ t.addr m :=
  offset_disjoint _ h

theorem addr_add_sizeOf_le (m : ObjMember) : t.addr m + t.sizeOf m ≤ t.objSize :=
  offset_add_size_le _ m

end QsMessage

end ErgoDock
