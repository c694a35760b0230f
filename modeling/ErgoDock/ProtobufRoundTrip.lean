import ErgoDock.ProtobufBounds

/-! # Encoding and decoding an object (`qs_protobuf.c`)

The strings are written as bytes and read as varints; the byte fields are written from behind their
first word, which says how many bytes, and read from the head of the array on.  So an object comes
back the same exactly if its strings have no byte from 0x80 on, and its byte fields repeat
themselves at a distance of four (`round_trip_iff`).

`encodedBytes` is what encoding writes, `content` what it takes from an array; what decoding makes
of them follows from `decode_eq`. -/

namespace ErgoDock

open RawMemory

/-- The member that says how much of an array is used. -/
def lengthMember : ObjMember → Option ObjMember
  | .data => some .dataLen
  | .stat => some .statLen
  | _ => none

namespace QsMessage
variable (t : QsMessage)

/-- The declared length of a byte field in an array of `n` bytes. -/
def declaredLen (obj : Mem) (m : ObjMember) (n : ℕ) : ℕ :=
  match lengthMember m with
  | some len => (word obj (t.addr len)).toInt.toNat
  | none => n

/-- The strings end in their arrays, and the byte fields fit in theirs. -/
def WellFormed (obj : Mem) : Prop := ∀ p ∈ t.members,
  match p.2 with
  | .int32 => True
  | .char n => ∃ k < n, obj (t.addr p.1 + k) = 0
  | .uint8 n => t.declaredLen obj p.1 n ≤ n

/-- Two objects are the same in their numbers, their strings and their byte fields. -/
def SameObject (obj obj' : Mem) : Prop := ∀ p ∈ t.members,
  match p.2 with
  | .int32 => word obj' (t.addr p.1) = word obj (t.addr p.1)
  | .char _ => cstring stringSpace obj' (t.addr p.1) = cstring stringSpace obj (t.addr p.1)
  | .uint8 n => ∀ i < t.declaredLen obj p.1 n, obj' (t.addr p.1 + i) = obj (t.addr p.1 + i)

/-- The buffer after encoding, as far as it was written. -/
def sent (obj : Mem) (len : ℕ) : List UInt8 :=
  (t.encode obj len).2.state.take (t.encode obj len).2.bytesWritten

/-- Encoding into `len` bytes and decoding into a zeroed object succeeds and gives the same
object. -/
def RoundTrips (obj : Mem) (len : ℕ) : Prop := ∀ blank : Mem, (∀ x < t.objSize, blank x = 0) →
  (t.encode obj len).1 = .success ∧ (t.decode (t.sent obj len) blank).1 = .success ∧
    t.SameObject obj (t.decode (t.sent obj len) blank).2.mem

/-- What encoding takes from an array. -/
def content (obj : Mem) : QsCallback → List UInt8
  | .string arg => cstring stringSpace obj (t.addr arg)
  | .bytes arg => slice obj (t.addr arg + 4) (word obj (t.addr arg)).toNat

/-- What the callback of a member writes. -/
def payload (obj : Mem) (k : MsgMember) : List UInt8 :=
  ((t.callbacks.lookup k).map (t.content obj)).getD []

/-- What encoding writes, if there is room. -/
def encodedBytes (obj : Mem) : List UInt8 :=
  messageBytes (t.assigned obj) (t.payload obj) t.fields

/-- The strings have no byte from 0x80 on.  In a byte field, whose first word is `l`, each byte
before `l` is the one four places later, and the others are zero. -/
def Survives (obj : Mem) : Prop := ∀ p ∈ t.members,
  match p.2 with
  | .int32 => True
  | .char _ => ∀ b ∈ cstring stringSpace obj (t.addr p.1), b.toNat < 0x80
  | .uint8 n => ∀ i < t.declaredLen obj p.1 n, obj (t.addr p.1 + i) =
      if i < (word obj (t.addr p.1)).toNat then obj (t.addr p.1 + 4 + i) else 0

/-! ### Encoding -/

variable {t} {obj blank : Mem} {len : ℕ}

theorem filterMap_sublist_map {α β : Type} {f : α → Option β} {g : α → β}
    (h : ∀ a b, f a = some b → g a = b) (l : List α) : (l.filterMap f).Sublist (l.map g) := by
  induction l with
  | nil => exact .slnil
  | cons a l ih =>
      cases hf : f a with
      | none =>
          rw [List.filterMap_cons_none hf, List.map_cons]
          exact ih.cons _
      | some b =>
          rw [List.filterMap_cons_some hf, List.map_cons, h a b hf]
          exact ih.cons_cons _

theorem member_of_staticMember (f : PbField MsgMember) (k : MsgMember)
    (h : staticMember f = some k) : f.member = k := by
  by_cases htype : f.type = .int32
  · exact Option.some.inj ((staticMember_of_int32 htype).symm.trans h)
  · rw [staticMember_of_ne htype] at h
    cases h

theorem member_of_callbackMember (f : PbField MsgMember) (k : MsgMember)
    (h : callbackMember f = some k) : f.member = k := by
  by_cases htype : f.type = .int32
  · rw [callbackMember_of_int32 htype] at h
    cases h
  · exact Option.some.inj ((callbackMember_of_ne htype).symm.trans h)

theorem assigns_fst_nodup : (t.assigns.map Prod.fst).Nodup :=
  t.assigns_fields.nodup_iff.mpr
    (t.fields_nodup.sublist (filterMap_sublist_map member_of_staticMember _))

theorem callbacks_fst_nodup : (t.callbacks.map Prod.fst).Nodup := by
  rw [t.callbacks_fields]
  exact t.fields_nodup.sublist (filterMap_sublist_map member_of_callbackMember _)

theorem lookup_of_mem {c : MsgMember × QsCallback} (hc : c ∈ t.callbacks) :
    t.callbacks.lookup c.1 = some c.2 := by
  have hsome : (t.callbacks.lookup c.1).isSome :=
    List.lookup_isSome_iff.mpr ⟨c, hc, beq_self_eq_true _⟩
  obtain ⟨c', hc'⟩ := Option.isSome_iff_exists.mp hsome
  have he := List.inj_on_of_nodup_map callbacks_fst_nodup (lookup_mem hc') hc rfl
  rw [hc', ← he]

theorem length_payload_lt (k : MsgMember) : (t.payload obj k).length < 2 ^ 32 := by
  unfold payload
  cases t.callbacks.lookup k with
  | none => exact Nat.two_pow_pos 32
  | some c =>
      rw [Option.map_some, Option.getD_some]
      cases c with
      | string arg =>
          unfold content
          rw [length_cstring]
          exact Nat.lt_of_le_of_lt strlen_le_space (by decide)
      | bytes arg =>
          unfold content
          rw [length_slice]
          exact BitVec.isLt _

/-- The callbacks write their tag and what they take from their array. -/
theorem appends_encoder {f : PbField MsgMember} {c : QsCallback}
    (hc : t.callbacks.lookup f.member = some c) : ∃ encode,
      t.encoders obj f.member = some encode ∧ (encode f).Appends (f.tagBytes ++
        (Varint.encode (t.payload obj f.member).length ++ t.payload obj f.member)) := by
  have hpayload : t.payload obj f.member = t.content obj c := by
    unfold payload
    rw [hc]
    rfl
  unfold encoders
  rw [hc, hpayload]
  cases c with
  | string arg => exact ⟨_, rfl, (appends_pbWrite _).andThen (appends_pbEncodeString _)⟩
  | bytes arg => exact ⟨_, rfl, (appends_pbWrite _).andThen (appends_pbEncodeString _)⟩

theorem encode_eq (hroom : (t.encodedBytes obj).length ≤ len) (hlen : len < 2 ^ 32) :
    t.encode obj len = (.success, { maxSize := len, state := t.encodedBytes obj
                                    bytesWritten := (t.encodedBytes obj).length }) := by
  have happ : (pbEncode (t.assigned obj) (t.encoders obj) t.fields).Appends
      (t.encodedBytes obj) := by
    refine appends_pbEncode fun f hf htype => ?_
    obtain ⟨c, hc⟩ := Option.isSome_iff_exists.mp (lookup_isSome hf htype)
    exact appends_encoder hc
  have hrun := happ { maxSize := len } (by dsimp only; omega) hlen
  unfold encode
  dsimp only
  rw [hrun, List.nil_append, Nat.zero_add]
  rfl

theorem sent_eq (hroom : (t.encodedBytes obj).length ≤ len) (hlen : len < 2 ^ 32) :
    t.sent obj len = t.encodedBytes obj := by
  unfold sent
  rw [encode_eq hroom hlen]
  exact List.take_length

/-! ### What is delivered -/

/-- What a member's callback carries. -/
def carriesAt (t : QsMessage) (payload : MsgMember → List UInt8) (k : MsgMember) :
    List (QsCallback × List UInt8) :=
  ((t.callbacks.lookup k).map fun c => (c, payload k)).toList

theorem carriedBy_eq (payload : MsgMember → List UInt8) (fs : List (PbField MsgMember)) :
    t.carriedBy payload fs = (fs.filterMap callbackMember).flatMap (t.carriesAt payload) := by
  induction fs with
  | nil => rfl
  | cons f fs ih =>
      unfold carriedBy at ih ⊢
      rw [List.flatMap_cons, ih]
      by_cases htype : f.type = .int32
      · rw [fieldCarries_of_int32 htype, List.filterMap_cons_none (callbackMember_of_int32 htype)]
        rfl
      · rw [fieldCarries_of_ne htype, List.filterMap_cons_some (callbackMember_of_ne htype),
          List.flatMap_cons]
        rfl

theorem carriedBy_fields : t.carriedBy (t.payload obj) t.fields =
    t.callbacks.map fun c => (c.2, t.content obj c.2) := by
  have hcarries : ∀ c ∈ t.callbacks,
      t.carriesAt (t.payload obj) c.1 = [(c.2, t.content obj c.2)] := by
    intro c hc
    unfold carriesAt payload
    rw [lookup_of_mem hc]
    rfl
  rw [carriedBy_eq, ← t.callbacks_fields, List.flatMap_map, List.map_eq_flatMap]
  exact List.flatMap_congr hcarries

/-- A static member is what its field was. -/
theorem scalarsOf_apply (scalar : MsgMember → BitVec 32) (fs : List (PbField MsgMember))
    (start : MsgMember → BitVec 32) (k : MsgMember) :
    scalarsOf scalar fs start k = if k ∈ fs.filterMap staticMember then scalar k else start k := by
  induction fs generalizing start with
  | nil => rfl
  | cons f fs ih =>
      unfold scalarsOf at ih ⊢
      rw [List.foldl_cons, ih]
      by_cases htype : f.type = .int32
      · rw [List.filterMap_cons_some (staticMember_of_int32 htype), if_pos htype]
        by_cases hk : k = f.member
        · rw [hk, Function.update_self, if_pos (List.mem_cons_self ..), ite_self]
        · rw [Function.update_of_ne hk]
          exact if_congr (by rw [List.mem_cons]; exact (or_iff_right hk).symm) rfl rfl
      · rw [List.filterMap_cons_none (staticMember_of_ne htype), if_neg htype]

/-- The assignments before encoding. -/
theorem foldl_update_of_notMem {l : List (MsgMember × ObjMember)}
    {g : MsgMember × ObjMember → BitVec 32} {start : MsgMember → BitVec 32} {k : MsgMember}
    (hk : k ∉ l.map Prod.fst) :
    l.foldl (fun msg a => Function.update msg a.1 (g a)) start k = start k :=
  foldl_untouched (fun _ ha _ => Function.update_of_ne
    (fun he => hk (List.mem_map.mpr ⟨_, ha, he.symm⟩)) ..) start

theorem foldl_update {l : List (MsgMember × ObjMember)} {g : MsgMember × ObjMember → BitVec 32}
    (hnodup : (l.map Prod.fst).Nodup) {start : MsgMember → BitVec 32}
    {a : MsgMember × ObjMember} (ha : a ∈ l) :
    l.foldl (fun msg a => Function.update msg a.1 (g a)) start a.1 = g a := by
  induction l generalizing start with
  | nil => cases ha
  | cons b l ih =>
      obtain ⟨hnot, hnodup⟩ := List.nodup_cons.mp hnodup
      rcases List.mem_cons.mp ha with rfl | ha
      · -- the later assignments are to other members
        rw [List.foldl_cons, foldl_update_of_notMem hnot, Function.update_self]
      · exact ih hnodup ha

theorem assigned_apply {a : MsgMember × ObjMember} (ha : a ∈ t.assigns) :
    t.assigned obj a.1 = word obj (t.addr a.2) :=
  foldl_update (g := fun a => word obj (t.addr a.2)) assigns_fst_nodup ha

theorem delivered_encodedBytes :
    (t.delivered (t.encodedBytes obj)).1 =
        (t.callbacks.map fun c => (c.2, t.content obj c.2)).all (fun d => d.1.accepts d.2) ∧
      ((t.callbacks.map fun c => (c.2, t.content obj c.2)).all (fun d => d.1.accepts d.2) = true →
        (t.delivered (t.encodedBytes obj)).2 =
          { scalar := scalarsOf (t.assigned obj) t.fields fun _ => 0
            env := t.callbacks.map fun c => (c.2, t.content obj c.2) }) := by
  unfold encodedBytes
  rw [delivered_messageBytes (fun _ hf => hf) t.fields_nodup length_payload_lt, ← carriedBy_fields]
  exact receive_noting (fun _ hf => hf) ⟨fun _ => 0, []⟩

/-! ### What decoding makes of it -/

theorem callbacks_snd_nodup : (t.callbacks.map Prod.snd).Nodup := by
  have harg : ∀ (p : ObjMember × MemberType) (m : ObjMember),
      (arrayMember p).map QsCallback.arg = some m → p.1 = m := by
    intro p m hm
    unfold arrayMember at hm
    split at hm
    · cases hm
    · exact Option.some.inj hm
    · exact Option.some.inj hm
  have hargs := t.members_nodup.sublist (filterMap_sublist_map harg t.members)
  rw [t.callbacks_members]
  refine List.Nodup.of_map QsCallback.arg ?_
  rwa [List.map_filterMap]

theorem carried_le_length (c : QsCallback) (field : List UInt8) :
    c.carried field ≤ field.length := by
  cases c with
  | string arg => exact Varint.length_values_le field
  | bytes arg => exact Nat.le_refl _

theorem char_of_string {arg : ObjMember} (hc : .string arg ∈ t.callbacks.map Prod.snd) :
    ∃ n, (arg, MemberType.char n) ∈ t.members := by
  obtain ⟨ty, hty, hsome⟩ := array_of_callback hc
  cases ty with
  | int32 => cases hsome
  | char n => exact ⟨n, hty⟩
  | uint8 n => cases hsome

/-- A string is shorter than its array. -/
theorem length_string_lt (h : t.WellFormed obj) {arg : ObjMember}
    (hc : .string arg ∈ t.callbacks.map Prod.snd) :
    (t.content obj (.string arg)).length < t.sizeOf arg := by
  obtain ⟨n, hm⟩ := char_of_string hc
  obtain ⟨k, hk, hz⟩ := h _ hm
  have hsize : t.sizeOf arg = n := sizeOf_of_mem hm
  unfold content
  rw [length_cstring, hsize]
  exact Nat.lt_of_le_of_lt (strlen_le hz) hk

/-- What the other fields carry does not reach into an array. -/
theorem other_outside (h : t.WellFormed obj) {c d : MsgMember × QsCallback}
    (hc : c ∈ t.callbacks) (hd : d ∈ t.callbacks) (hne : d.2 ≠ c.2) {x : ℕ}
    (hlo : t.addr c.2.arg ≤ x) (hhi : x < t.addr c.2.arg + t.sizeOf c.2.arg) :
    x < t.addr d.2.arg ∨ t.addr d.2.arg + d.2.carried (t.content obj d.2) ≤ x := by
  have hcm : c.2 ∈ t.callbacks.map Prod.snd := List.mem_map_of_mem hc
  have hdm : d.2 ∈ t.callbacks.map Prod.snd := List.mem_map_of_mem hd
  have harg : d.2.arg ≠ c.2.arg := fun he => hne (arg_injective hdm hcm he)
  have hcarried := carried_le_length d.2 (t.content obj d.2)
  cases hkind : d.2 with
  | string arg =>
      rw [hkind] at hdm hcarried harg
      have hlt := length_string_lt h hdm
      have hdisj := addr_disjoint (t := t) harg
      change t.addr arg + t.sizeOf arg ≤ _ ∨ _ + _ ≤ t.addr arg at hdisj
      change x < t.addr arg ∨ t.addr arg + _ ≤ x
      omega
  | bytes arg =>
      have hlast : t.addr c.2.arg + t.sizeOf c.2.arg ≤ t.addr d.2.arg :=
        t.bytes_last d hd (by rw [hkind]; rfl) c hc hne.symm
      rw [hkind] at hlast
      exact .inl (Nat.lt_of_lt_of_le hhi hlast)

theorem foldl_place_own {l : List (MsgMember × QsCallback)} (hnodup : (l.map Prod.snd).Nodup)
    {c : MsgMember × QsCallback} (hc : c ∈ l) {m : Mem} {x : ℕ}
    (hx : ∀ d ∈ l, d.2 ≠ c.2 →
      x < t.addr d.2.arg ∨ t.addr d.2.arg + d.2.carried (t.content obj d.2) ≤ x) :
    (l.map fun c => (c.2, t.content obj c.2)).foldl t.place m x =
      t.place m (c.2, t.content obj c.2) x := by
  induction l generalizing m with
  | nil => cases hc
  | cons d l ih =>
      obtain ⟨hnot, hnodup⟩ := List.nodup_cons.mp hnodup
      have hx' : ∀ e ∈ l, e.2 ≠ c.2 →
          x < t.addr e.2.arg ∨ t.addr e.2.arg + e.2.carried (t.content obj e.2) ≤ x :=
        fun e he => hx e (List.mem_cons_of_mem _ he)
      rw [List.map_cons, List.foldl_cons]
      rcases List.mem_cons.mp hc with rfl | hc
      · refine foldl_place_outside fun e he => ?_
        obtain ⟨e', he', rfl⟩ := List.mem_map.mp he
        exact hx' e' he' fun heq => hnot (List.mem_map.mpr ⟨e', he', heq⟩)
      · have hne : d.2 ≠ c.2 := fun heq => hnot (List.mem_map.mpr ⟨c, hc, heq.symm⟩)
        rw [ih hnodup hc hx']
        exact overlay_congr (place_outside (hx d (List.mem_cons_self ..) hne))

/-- The arrays of a zeroed object after decoding. -/
theorem array_decoded (h : t.WellFormed obj) (hblank : ∀ x < t.objSize, blank x = 0)
    (hacc : (t.delivered (t.encodedBytes obj)).1 = true) {c : QsCallback}
    (hc : c ∈ t.callbacks.map Prod.snd) {i : ℕ} (hi : i < t.sizeOf c.arg) :
    (t.decode (t.encodedBytes obj) blank).2.mem (t.addr c.arg + i) =
      (c.values (t.content obj c)).getD i 0 := by
  obtain ⟨d, hd, rfl⟩ := List.mem_map.mp hc
  have hall := delivered_encodedBytes.1.symm.trans hacc
  have hzero : blank (t.addr d.2.arg + i) = 0 := by
    have hle := addr_add_sizeOf_le (t := t) d.2.arg
    exact hblank _ (by omega)
  rw [decode_eq]
  dsimp only
  rw [delivered_encodedBytes.2 hall, assignBack_array hc (by omega) (by omega),
    foldl_place_own callbacks_snd_nodup hd
      fun e he hne => other_outside h hd he hne (by omega) (by omega)]
  unfold place
  dsimp only
  by_cases hin : i < (d.2.values (t.content obj d.2)).length
  · rw [overlay_inside (by omega), Nat.add_sub_cancel_left]
  · rw [overlay_outside (by omega), hzero, List.getD_eq_default _ _ (by omega)]

/-- The `int32` members after decoding. -/
theorem word_decoded (hacc : (t.delivered (t.encodedBytes obj)).1 = true) {m : ObjMember}
    (hm : (m, MemberType.int32) ∈ t.members) :
    word (t.decode (t.encodedBytes obj) blank).2.mem (t.addr m) = word obj (t.addr m) := by
  have hall := delivered_encodedBytes.1.symm.trans hacc
  have hmem : m ∈ t.assigns.map Prod.snd :=
    t.assigns_members.mem_iff.mpr (List.mem_filterMap.mpr ⟨_, hm, rfl⟩)
  obtain ⟨a, ha, rfl⟩ := List.mem_map.mp hmem
  have hstatic : a.1 ∈ t.fields.filterMap staticMember :=
    t.assigns_fields.mem_iff.mp (List.mem_map_of_mem ha)
  rw [decode_eq]
  dsimp only
  rw [word_assignBack ha, delivered_encodedBytes.2 hall]
  dsimp only
  rw [scalarsOf_apply, if_pos hstatic, assigned_apply ha]

/-! ### The round trip -/

theorem string_mem {m : ObjMember} {n : ℕ} (hm : (m, MemberType.char n) ∈ t.members) :
    .string m ∈ t.callbacks.map Prod.snd := by
  rw [t.callbacks_members]
  exact List.mem_filterMap.mpr ⟨_, hm, rfl⟩

theorem bytes_mem {m : ObjMember} {n : ℕ} (hm : (m, MemberType.uint8 n) ∈ t.members) :
    .bytes m ∈ t.callbacks.map Prod.snd := by
  rw [t.callbacks_members]
  exact List.mem_filterMap.mpr ⟨_, hm, rfl⟩

/-- The bytes of a byte field after decoding. -/
theorem bytes_decoded (h : t.WellFormed obj) (hblank : ∀ x < t.objSize, blank x = 0)
    (hacc : (t.delivered (t.encodedBytes obj)).1 = true) {m : ObjMember} {n : ℕ}
    (hm : (m, MemberType.uint8 n) ∈ t.members) {i : ℕ} (hi : i < n) :
    (t.decode (t.encodedBytes obj) blank).2.mem (t.addr m + i) =
      if i < (word obj (t.addr m)).toNat then obj (t.addr m + 4 + i) else 0 := by
  have hin : i < t.sizeOf m := by
    rw [sizeOf_of_mem hm]
    exact hi
  have harray := array_decoded h hblank hacc (bytes_mem hm) hin
  exact harray.trans (getD_slice i)

/-- Strings of small bytes are accepted, and stored as they are. -/
theorem values_string (arg : ObjMember) {field : List UInt8} (h : ∀ b ∈ field, b.toNat < 0x80) :
    QsCallback.accepts (.string arg) field = true ∧
      QsCallback.values (.string arg) field = field := by
  rw [QsCallback.accepts, QsCallback.values, Varint.values_of_small (by decide) h]
  refine ⟨rfl, ?_⟩
  rw [List.map_map]
  exact List.map_id'' (fun b => UInt8.ofNat_toNat) field

theorem accepted_of_survives (h : t.Survives obj) :
    (t.delivered (t.encodedBytes obj)).1 = true := by
  rw [delivered_encodedBytes.1, List.all_eq_true]
  intro d hd
  obtain ⟨c, hc, rfl⟩ := List.mem_map.mp hd
  have hcm : c.2 ∈ t.callbacks.map Prod.snd := List.mem_map_of_mem hc
  dsimp only
  cases hkind : c.2 with
  | bytes arg => rfl
  | string arg =>
      rw [hkind] at hcm
      obtain ⟨n, hm⟩ := char_of_string hcm
      exact (values_string arg (h _ hm)).1

/-- A well-formed object that survives comes back the same. -/
theorem same_of_survives (h : t.WellFormed obj) (hs : t.Survives obj)
    (hblank : ∀ x < t.objSize, blank x = 0) :
    t.SameObject obj (t.decode (t.encodedBytes obj) blank).2.mem := by
  have hacc := accepted_of_survives hs
  rintro ⟨m, ty⟩ hm
  cases ty with
  | int32 => exact word_decoded hacc hm
  | char n =>
      have hlt := length_string_lt h (string_mem hm)
      have hvalues := (values_string m (hs _ hm)).2
      refine cstring_of_getD (n := t.sizeOf m) (fun i hi => ?_) ?_
      · have harray := array_decoded h hblank hacc (string_mem hm) hi
        exact harray.trans (congrArg (fun l => List.getD l i 0) hvalues)
      · rwa [content, length_cstring] at hlt
  | uint8 n =>
      intro i hi
      have hfit : t.declaredLen obj m n ≤ n := h _ hm
      rw [bytes_decoded h hblank hacc hm (Nat.lt_of_lt_of_le hi hfit)]
      exact (hs _ hm i hi).symm

/-- An object that comes back the same survives. -/
theorem survives_of_same (h : t.WellFormed obj) (hblank : ∀ x < t.objSize, blank x = 0)
    (hacc : (t.delivered (t.encodedBytes obj)).1 = true)
    (hsame : t.SameObject obj (t.decode (t.encodedBytes obj) blank).2.mem) : t.Survives obj := by
  rintro ⟨m, ty⟩ hm
  cases ty with
  | int32 => trivial
  | char n =>
      intro b hb
      by_contra hlarge
      have hlt := length_string_lt h (string_mem hm)
      -- a byte with top bit makes the values fewer than the bytes
      have hfewer : (QsCallback.values (.string m) (t.content obj (.string m))).length <
          (t.content obj (.string m)).length := by
        rw [QsCallback.length_values]
        exact Varint.length_values_lt hb (Nat.le_of_not_lt hlarge)
      have hstring : cstring stringSpace (t.decode (t.encodedBytes obj) blank).2.mem (t.addr m) =
          t.content obj (.string m) := hsame _ hm
      have hle : (t.content obj (.string m)).length ≤ _ := hstring ▸ length_cstring_le
        (fun i hi => array_decoded h hblank hacc (string_mem hm) hi) (Nat.lt_trans hfewer hlt)
      omega
  | uint8 n =>
      intro i hi
      have hfit : t.declaredLen obj m n ≤ n := h _ hm
      exact (hsame _ hm i hi).symm.trans
        (bytes_decoded h hblank hacc hm (Nat.lt_of_lt_of_le hi hfit))

theorem decode_success {msg : List UInt8} :
    (t.decode msg blank).1 = .success ↔ (t.delivered msg).1 = true := by
  rw [decode_eq]
  dsimp only
  unfold qsRetCode
  split
  · exact iff_of_true rfl ‹_›
  · exact iff_of_false (by decide) ‹_›

theorem roundTrips_iff (h : t.WellFormed obj) (hroom : (t.encodedBytes obj).length ≤ len)
    (hlen : len < 2 ^ 32) : t.RoundTrips obj len ↔ t.Survives obj := by
  unfold RoundTrips
  rw [sent_eq hroom hlen, encode_eq hroom hlen]
  constructor
  · intro hr
    obtain ⟨-, hok, hsame⟩ := hr (fun _ => 0) fun _ _ => rfl
    exact survives_of_same h (fun _ _ => rfl) (decode_success.mp hok) hsame
  · intro hs blank hblank
    exact ⟨rfl, decode_success.mpr (accepted_of_survives hs), same_of_survives h hs hblank⟩

end QsMessage

/-- For every message type, every well-formed object and every buffer that is large enough, the
object comes back the same if and only if it survives: no byte of its strings is 0x80 or more, and
each byte of a byte field is the one four places later, before the length in its first word, and
zero from there on. -/
theorem round_trip_iff (t : QsMessage) (_ : t ∈ qsMessages) (obj : Mem) (len : ℕ)
    (hobj : t.WellFormed obj) (hroom : (t.encodedBytes obj).length ≤ len) (hlen : len < 2 ^ 32) :
    t.RoundTrips obj len ↔ t.Survives obj :=
  QsMessage.roundTrips_iff hobj hroom hlen

/-- The `device_id` "é", and nothing else. -/
def accentedDevice : Mem := fun x => if x = 0 then 0xC3 else if x = 1 then 0xA9 else 0

/-- A `cmd` of one byte 7, behind its length. -/
def shortCommand : Mem := fun x => if x = 28 then 1 else if x = 32 then 7 else 0

theorem encodedBytes_accentedDevice :
    qsPbVerPost.encodedBytes accentedDevice = [0x0A, 2, 0xC3, 0xA9] := by
  have hdevice : qsPbVerPost.payload accentedDevice .deviceID = [0xC3, 0xA9] := by decide
  unfold QsMessage.encodedBytes qsPbVerPost
  dsimp only
  rw [messageBytes_cons_short (by decide) (by decide) hdevice (by decide),
    messageBytes_cons_zero rfl (by decide), messageBytes_cons_zero rfl (by decide),
    messageBytes_cons_zero rfl (by decide), messageBytes_cons_zero rfl (by decide)]
  rfl

theorem encodedBytes_shortCommand :
    qsPbBedCmd.encodedBytes shortCommand = [0x0A, 0, 0x1A, 1, 7] := by
  have hdevice : qsPbBedCmd.payload shortCommand .deviceID = [] := by decide
  have hcmd : qsPbBedCmd.payload shortCommand .cmd = [7] := by decide
  unfold QsMessage.encodedBytes qsPbBedCmd
  dsimp only
  rw [messageBytes_cons_short (by decide) (by decide) hdevice (by decide),
    messageBytes_cons_zero rfl (by decide),
    messageBytes_cons_short (by decide) (by decide) hcmd (by decide)]
  rfl

theorem wellFormed_accentedDevice : qsPbVerPost.WellFormed accentedDevice := by
  have hint : ∀ p ∈ qsPbVerPost.members.tail, p.2 = .int32 := by decide
  intro p hp
  rcases List.mem_cons.mp hp with rfl | hp
  · exact ⟨2, by decide, by decide⟩
  · rw [hint p hp]
    trivial

theorem wellFormed_shortCommand : qsPbBedCmd.WellFormed shortCommand := by
  intro p hp
  rcases List.mem_cons.mp hp with rfl | hp
  · exact ⟨0, by decide, by decide⟩
  · rcases List.mem_cons.mp hp with rfl | hp
    · trivial
    · cases List.mem_singleton.mp hp
      exact Nat.le_refl 512

/-- A `device_id` that is not plain does not come back, and neither does a `cmd` of one byte. -/
theorem accented_device_lost :
    (qsPbVerPost.WellFormed accentedDevice ∧
      (qsPbVerPost.encodedBytes accentedDevice).length ≤ 64 ∧
        ¬ qsPbVerPost.RoundTrips accentedDevice 64) ∧
    qsPbBedCmd.WellFormed shortCommand ∧
      (qsPbBedCmd.encodedBytes shortCommand).length ≤ 64 ∧
        ¬ qsPbBedCmd.RoundTrips shortCommand 64 := by
  have hdevice : (qsPbVerPost.encodedBytes accentedDevice).length ≤ 64 := by
    rw [encodedBytes_accentedDevice]
    decide
  have hcmd : (qsPbBedCmd.encodedBytes shortCommand).length ≤ 64 := by
    rw [encodedBytes_shortCommand]
    decide
  refine ⟨⟨wellFormed_accentedDevice, hdevice, fun h => ?_⟩, wellFormed_shortCommand, hcmd,
    fun h => ?_⟩
  · have hs := (QsMessage.roundTrips_iff wellFormed_accentedDevice hdevice (by decide)).mp h
    have hascii := hs (.deviceId, .char qsPbDeviceIdSize) (List.mem_cons_self ..) 0xC3 (by decide)
    exact absurd hascii (by decide)
  · have hs := (QsMessage.roundTrips_iff wellFormed_shortCommand hcmd (by decide)).mp h
    have hfirst : shortCommand 28 = shortCommand 32 :=
      hs (.cmd, .uint8 qsPbBedContrlSize) (by decide) 0 (by decide)
    exact absurd hfirst (by decide)

/-- The `device_id` "AB", and nothing else. -/
def plainDevice : Mem := fun x => if x = 0 then 0x41 else if x = 1 then 0x42 else 0

theorem encodedBytes_plainDevice :
    qsPbCliCommand.encodedBytes plainDevice = [0x0A, 2, 0x41, 0x42, 0x1A, 0] := by
  have hdevice : qsPbCliCommand.payload plainDevice .deviceID = [0x41, 0x42] := by decide
  have hcommand : qsPbCliCommand.payload plainDevice .command = [] := by decide
  unfold QsMessage.encodedBytes qsPbCliCommand
  dsimp only
  rw [messageBytes_cons_short (by decide) (by decide) hdevice (by decide),
    messageBytes_cons_zero rfl (by decide),
    messageBytes_cons_short (by decide) (by decide) hcommand (by decide)]
  rfl

theorem wellFormed_plainDevice : qsPbCliCommand.WellFormed plainDevice := by
  intro p hp
  rcases List.mem_cons.mp hp with rfl | hp
  · exact ⟨2, by decide, by decide⟩
  · rcases List.mem_cons.mp hp with rfl | hp
    · trivial
    · cases List.mem_singleton.mp hp
      exact ⟨0, by decide, by decide⟩

theorem survives_plainDevice : qsPbCliCommand.Survives plainDevice := by
  have hdevice : cstring stringSpace plainDevice (qsPbCliCommand.addr .deviceId) =
      [0x41, 0x42] := by decide
  have hcommand : cstring stringSpace plainDevice (qsPbCliCommand.addr .command) = [] := by decide
  intro p hp
  rcases List.mem_cons.mp hp with rfl | hp
  · dsimp only
    rw [hdevice]
    simp
  · rcases List.mem_cons.mp hp with rfl | hp
    · trivial
    · cases List.mem_singleton.mp hp
      dsimp only
      rw [hcommand]
      exact fun b hb => absurd hb List.not_mem_nil

/-- A plain `device_id` comes back. -/
theorem plain_device_kept : qsPbCliCommand.RoundTrips plainDevice 64 :=
  (round_trip_iff qsPbCliCommand (by unfold qsMessages; simp) plainDevice 64
    wellFormed_plainDevice (by rw [encodedBytes_plainDevice]; decide) (by decide)).mpr
      survives_plainDevice

end ErgoDock
