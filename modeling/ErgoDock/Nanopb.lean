import ErgoDock.Lib.Varint

/-! # The protobuf library (`pb_encode.c`, `pb_decode.c`)

What the messages of `keesoncloud.proto` need of nanopb: static `int32` fields, and `string` and
`bytes` fields with callbacks.  An input stream is the list of the bytes left.  An output stream
counts what is written in a `size_t` of 32 bits.

`pb_decode` is a loop over the fields it finds (`pbDecodeStep`, `pbDecodeNoinit`).  Two runs over
the same bytes whose callbacks answer alike go alike (`pbDecode_related`), so what the callbacks are
given can be told by a run that only writes it down.  A message read back from its own bytes gives
every field to its reader, in order (`pbDecodeNoinit_messageBytes`). -/

namespace ErgoDock

/-! ### Messages -/

/-- The types of fields: `INT32` is static, `STRING` and `BYTES` have callbacks. -/
inductive PbType where
  | int32
  | string
  | bytes
deriving DecidableEq

/-- A `PB_FIELD`, for the member `member` of the message structure. -/
structure PbField (μ : Type) where
  tag : ℕ
  type : PbType
  member : μ

/-- A message structure: its static members, and what its callbacks act on. -/
structure PbMessage (μ σ : Type) where
  scalar : μ → BitVec 32
  env : σ

def pbWtVarint : ℕ := 0
def pbWt64bit : ℕ := 1
def pbWtString : ℕ := 2
def pbWt32bit : ℕ := 5

/-! ### Input -/

/-- `pb_read`. -/
def pbRead (count : ℕ) (s : List UInt8) : Option (List UInt8 × List UInt8) :=
  if s.length < count then none else some (s.take count, s.drop count)

/-- What `pb_decode_tag` finds. -/
inductive PbTag where
  | tag (wireType tag : ℕ) (rest : List UInt8)
  | eof
  | error

/-- `pb_decode_tag`. -/
def pbDecodeTag (s : List UInt8) : PbTag :=
  match Varint.decode 32 s with
  | .error rest => if rest = [] then .eof else .error
  | .ok (temp, rest) => if temp = 0 then .eof else .tag (temp % 8) (temp / 8) rest

/-- `pb_skip_varint`. -/
def pbSkipVarint : List UInt8 → Option (List UInt8)
  | [] => none
  | byte :: s => if byte.toNat < 128 then some s else pbSkipVarint s

/-- `pb_make_string_substream`: the substream and what stands behind it. -/
def pbMakeStringSubstream (s : List UInt8) : Option (List UInt8 × List UInt8) :=
  match Varint.decode 32 s with
  | .error _ => none
  | .ok (size, rest) => pbRead size rest

/-- `pb_skip_field`. -/
def pbSkipField (wireType : ℕ) (s : List UInt8) : Option (List UInt8) :=
  if wireType = pbWtVarint then pbSkipVarint s
  else if wireType = pbWt64bit then (pbRead 8 s).map Prod.snd
  else if wireType = pbWtString then (pbMakeStringSubstream s).map Prod.snd
  else if wireType = pbWt32bit then (pbRead 4 s).map Prod.snd
  else none

/-- A varint of at most `size` bytes, byte by byte. -/
def readRawVarint : ℕ → List UInt8 → Option (List UInt8 × List UInt8)
  | 0, _ => none
  | _ + 1, [] => none
  | size + 1, byte :: s =>
    if byte.toNat < 128 then some ([byte], s)
    else (readRawVarint size s).map fun p => (byte :: p.1, p.2)

/-- `read_raw_value`, into a buffer of 10 bytes. -/
def readRawValue (wireType : ℕ) (s : List UInt8) : Option (List UInt8 × List UInt8) :=
  if wireType = pbWtVarint then readRawVarint 10 s
  else if wireType = pbWt64bit then pbRead 8 s
  else if wireType = pbWt32bit then pbRead 4 s
  else none

/-! ### Decoding -/

section decode
variable {μ σ : Type} [DecidableEq μ]

/-- A decoding callback: from its substream, its answer and what it did.  It reads its substream to
the end or fails, so that the loop of `decode_callback_field` around it is over after one call. -/
abbrev DecodeCallback (σ : Type) := List UInt8 → σ → Bool × σ

/-- `decode_static_field` with `pb_dec_varint`, for an `int32`; the wire type is not looked at. -/
def decodeStaticField (member : μ) (s : List UInt8) (m : PbMessage μ σ) :
    Option (List UInt8) × PbMessage μ σ :=
  match Varint.decode 64 s with
  | .error _ => (none, m)
  | .ok (value, rest) =>
    (some rest, { m with scalar := Function.update m.scalar member (BitVec.ofNat 32 value) })

/-- `decode_callback_field`. -/
def decodeCallbackField (decode : Option (DecodeCallback σ)) (wireType : ℕ) (s : List UInt8)
    (m : PbMessage μ σ) : Option (List UInt8) × PbMessage μ σ :=
  match decode with
  | none => (pbSkipField wireType s, m)
  | some decode =>
    match if wireType = pbWtString then pbMakeStringSubstream s else readRawValue wireType s with
    | none => (none, m)
    | some (substream, rest) =>
      (if (decode substream m.env).1 then some rest else none,
        { m with env := (decode substream m.env).2 })

variable (fields : List (PbField μ)) (funcs : μ → Option (DecodeCallback σ))

/-- `decode_field`. -/
def decodeField (field : PbField μ) (wireType : ℕ) (s : List UInt8) (m : PbMessage μ σ) :
    Option (List UInt8) × PbMessage μ σ :=
  match field.type with
  | .int32 => decodeStaticField field.member s m
  | .string => decodeCallbackField (funcs field.member) wireType s m
  | .bytes => decodeCallbackField (funcs field.member) wireType s m

/-- Where the loop of `pb_decode_noinit` is after a round. -/
inductive PbStep (μ σ : Type) where
  | stop (status : Bool) (m : PbMessage μ σ)
  | next (s : List UInt8) (m : PbMessage μ σ)

/-- A round of the loop. -/
def pbDecodeStep (s : List UInt8) (m : PbMessage μ σ) : PbStep μ σ :=
  if s = [] then .stop true m
  else
    match pbDecodeTag s with
    | .eof => .stop true m
    | .error => .stop false m
    | .tag wireType tag rest =>
      -- the tags of a message are distinct, so it does not matter where the iterator stands
      match fields.find? fun f => f.tag = tag with
      | none =>
        match pbSkipField wireType rest with
        | none => .stop false m
        | some rest => .next rest m
      | some field =>
        match decodeField funcs field wireType rest m with
        | (none, m) => .stop false m
        | (some rest, m) => .next rest m

end decode

/-! ### What is left gets shorter -/

theorem pbRead_length {count : ℕ} {s : List UInt8} {p : List UInt8 × List UInt8}
    (h : pbRead count s = some p) : p.2.length ≤ s.length := by
  unfold pbRead at h
  split at h
  · cases h
  · cases h
    rw [List.length_drop]
    omega

theorem pbDecodeTag_length {s rest : List UInt8} {wireType tag : ℕ}
    (h : pbDecodeTag s = .tag wireType tag rest) : rest.length < s.length := by
  unfold pbDecodeTag at h
  split at h
  · split at h <;> cases h
  · rename_i temp rest' hd
    split at h
    · cases h
    · cases h
      exact Varint.decode_length hd

theorem pbSkipVarint_length {s rest : List UInt8} (h : pbSkipVarint s = some rest) :
    rest.length ≤ s.length := by
  induction s with
  | nil => cases h
  | cons byte s ih =>
      rw [pbSkipVarint] at h
      split at h
      · cases h
        exact Nat.le_succ _
      · exact Nat.le_succ_of_le (ih h)

theorem pbMakeStringSubstream_length {s : List UInt8} {p : List UInt8 × List UInt8}
    (h : pbMakeStringSubstream s = some p) : p.2.length ≤ s.length := by
  unfold pbMakeStringSubstream at h
  split at h
  · cases h
  · rename_i size rest hd
    exact Nat.le_trans (pbRead_length h) (Nat.le_of_lt (Varint.decode_length hd))

theorem pbSkipField_length {wireType : ℕ} {s rest : List UInt8}
    (h : pbSkipField wireType s = some rest) : rest.length ≤ s.length := by
  unfold pbSkipField at h
  split at h
  · exact pbSkipVarint_length h
  · split at h
    · obtain ⟨p, hp, rfl⟩ := Option.map_eq_some_iff.mp h
      exact pbRead_length hp
    · split at h
      · obtain ⟨p, hp, rfl⟩ := Option.map_eq_some_iff.mp h
        exact pbMakeStringSubstream_length hp
      · split at h
        · obtain ⟨p, hp, rfl⟩ := Option.map_eq_some_iff.mp h
          exact pbRead_length hp
        · cases h

theorem readRawVarint_length {size : ℕ} {s : List UInt8} {p : List UInt8 × List UInt8}
    (h : readRawVarint size s = some p) : p.2.length ≤ s.length := by
  induction size generalizing s p with
  | zero => cases h
  | succ size ih =>
      cases s with
      | nil => cases h
      | cons byte s =>
          rw [readRawVarint] at h
          split at h
          · cases h
            exact Nat.le_succ _
          · obtain ⟨q, hq, rfl⟩ := Option.map_eq_some_iff.mp h
            have hle : q.2.length ≤ s.length := ih hq
            exact Nat.le_succ_of_le hle

theorem readRawValue_length {wireType : ℕ} {s : List UInt8} {p : List UInt8 × List UInt8}
    (h : readRawValue wireType s = some p) : p.2.length ≤ s.length := by
  unfold readRawValue at h
  split at h
  · exact readRawVarint_length h
  · split at h
    · exact pbRead_length h
    · split at h
      · exact pbRead_length h
      · cases h

theorem decodeCallbackField_length {μ σ : Type} {decode : Option (DecodeCallback σ)}
    {wireType : ℕ} {s rest : List UInt8} {m m' : PbMessage μ σ}
    (h : decodeCallbackField decode wireType s m = (some rest, m')) :
    rest.length ≤ s.length := by
  unfold decodeCallbackField at h
  split at h
  · exact pbSkipField_length (congrArg Prod.fst h)
  · split at h
    · cases h
    · rename_i substream rest' hs
      have hrest : rest' = rest := by
        have hfst := congrArg Prod.fst h
        dsimp only at hfst
        split at hfst
        · exact Option.some.inj hfst
        · cases hfst
      subst hrest
      split at hs
      · exact pbMakeStringSubstream_length hs
      · exact readRawValue_length hs

section decode
variable {μ σ : Type} [DecidableEq μ] {fields : List (PbField μ)}
  {funcs : μ → Option (DecodeCallback σ)}

theorem decodeStaticField_length {member : μ} {s rest : List UInt8} {m m' : PbMessage μ σ}
    (h : decodeStaticField member s m = (some rest, m')) : rest.length ≤ s.length := by
  unfold decodeStaticField at h
  split at h
  · cases h
  · rename_i value rest' hd
    cases h
    exact Nat.le_of_lt (Varint.decode_length hd)

theorem decodeField_length {field : PbField μ} {wireType : ℕ} {s rest : List UInt8}
    {m m' : PbMessage μ σ} (h : decodeField funcs field wireType s m = (some rest, m')) :
    rest.length ≤ s.length := by
  unfold decodeField at h
  split at h
  · exact decodeStaticField_length h
  · exact decodeCallbackField_length h
  · exact decodeCallbackField_length h

/-- A round of the loop reads at least the tag. -/
theorem pbDecodeStep_length {s s' : List UInt8} {m m' : PbMessage μ σ}
    (h : pbDecodeStep fields funcs s m = .next s' m') : s'.length < s.length := by
  unfold pbDecodeStep at h
  split at h
  · cases h
  · split at h
    · cases h
    · cases h
    · rename_i wireType tag rest htag
      refine Nat.lt_of_le_of_lt ?_ (pbDecodeTag_length htag)
      split at h
      · split at h
        · cases h
        · rename_i hskip
          cases h
          exact pbSkipField_length hskip
      · split at h
        · cases h
        · rename_i hfield
          cases h
          exact decodeField_length hfield

end decode

section decode
variable {μ σ : Type} [DecidableEq μ]

/-- `pb_decode_noinit`; no field is required. -/
def pbDecodeNoinit (fields : List (PbField μ)) (funcs : μ → Option (DecodeCallback σ))
    (s : List UInt8) (m : PbMessage μ σ) : Bool × PbMessage μ σ :=
  match _ : pbDecodeStep fields funcs s m with
  | .stop status m' => (status, m')
  | .next s' m' => pbDecodeNoinit fields funcs s' m'
termination_by s.length
decreasing_by exact pbDecodeStep_length ‹_›

/-- `pb_decode`: the static members are zeroed first. -/
def pbDecode (fields : List (PbField μ)) (funcs : μ → Option (DecodeCallback σ)) (s : List UInt8)
    (env : σ) : Bool × PbMessage μ σ :=
  pbDecodeNoinit fields funcs s ⟨fun _ => 0, env⟩

section rounds
variable {fields : List (PbField μ)} {funcs : μ → Option (DecodeCallback σ)} {s s' : List UInt8}
  {m m' : PbMessage μ σ}

theorem pbDecodeNoinit_stop {status : Bool}
    (h : pbDecodeStep fields funcs s m = .stop status m') :
    pbDecodeNoinit fields funcs s m = (status, m') := by
  rw [pbDecodeNoinit]
  split
  · rename_i hs
    rw [h] at hs
    cases hs
    rfl
  · rename_i hs
    rw [h] at hs
    cases hs

theorem pbDecodeNoinit_next (h : pbDecodeStep fields funcs s m = .next s' m') :
    pbDecodeNoinit fields funcs s m = pbDecodeNoinit fields funcs s' m' := by
  rw [pbDecodeNoinit]
  split
  · rename_i hs
    rw [h] at hs
    cases hs
  · rename_i hs
    rw [h] at hs
    cases hs
    rfl

@[simp] theorem pbDecodeNoinit_nil : pbDecodeNoinit fields funcs [] m = (true, m) :=
  pbDecodeNoinit_stop (if_pos rfl)

end rounds

end decode

/-! ### Two runs over the same bytes -/

section related
variable {μ σ τ : Type} {R : σ → τ → Prop}

/-- The messages of two runs: the static members are the same. -/
def PbMessage.Related (R : σ → τ → Prop) (m : PbMessage μ σ) (n : PbMessage μ τ) : Prop :=
  m.scalar = n.scalar ∧ R m.env n.env

/-- Two callbacks that answer alike. -/
def CallbacksRelated (R : σ → τ → Prop) (f : DecodeCallback σ) (g : DecodeCallback τ) : Prop :=
  ∀ substream a b, R a b → (f substream a).1 = (g substream b).1 ∧
    R (f substream a).2 (g substream b).2

/-- The fields of two runs. -/
def FieldsRelated (R : σ → τ → Prop) (p : Option (List UInt8) × PbMessage μ σ)
    (q : Option (List UInt8) × PbMessage μ τ) : Prop :=
  p.1 = q.1 ∧ p.2.Related R q.2

/-- The rounds of two runs. -/
inductive StepsRelated (R : σ → τ → Prop) : PbStep μ σ → PbStep μ τ → Prop where
  | stop (status : Bool) {m : PbMessage μ σ} {n : PbMessage μ τ} (h : m.Related R n) :
      StepsRelated R (.stop status m) (.stop status n)
  | next (s : List UInt8) {m : PbMessage μ σ} {n : PbMessage μ τ} (h : m.Related R n) :
      StepsRelated R (.next s m) (.next s n)

variable {fields : List (PbField μ)} {f : μ → Option (DecodeCallback σ)}
  {g : μ → Option (DecodeCallback τ)} {m : PbMessage μ σ} {n : PbMessage μ τ}

theorem decodeCallbackField_related {f : Option (DecodeCallback σ)}
    {g : Option (DecodeCallback τ)} (hfg : Option.Rel (CallbacksRelated R) f g)
    (wireType : ℕ) (s : List UInt8) (h : m.Related R n) :
    FieldsRelated R (decodeCallbackField f wireType s m) (decodeCallbackField g wireType s n) := by
  unfold decodeCallbackField
  cases hfg with
  | none => exact ⟨rfl, h⟩
  | some hfg =>
      dsimp only
      split
      · exact ⟨rfl, h⟩
      · rename_i substream rest _
        obtain ⟨hanswer, henv⟩ := hfg substream m.env n.env h.2
        refine ⟨?_, h.1, henv⟩
        dsimp only
        rw [hanswer]

variable [DecidableEq μ]

theorem decodeField_related (hfg : ∀ k, Option.Rel (CallbacksRelated R) (f k) (g k))
    (field : PbField μ) (wireType : ℕ) (s : List UInt8) (h : m.Related R n) :
    FieldsRelated R (decodeField f field wireType s m) (decodeField g field wireType s n) := by
  unfold decodeField
  split
  · unfold decodeStaticField
    split
    · exact ⟨rfl, h⟩
    · refine ⟨rfl, ?_, h.2⟩
      dsimp only
      rw [h.1]
  · exact decodeCallbackField_related (hfg _) wireType s h
  · exact decodeCallbackField_related (hfg _) wireType s h

theorem pbDecodeStep_related (hfg : ∀ k, Option.Rel (CallbacksRelated R) (f k) (g k))
    (s : List UInt8) (h : m.Related R n) :
    StepsRelated R (pbDecodeStep fields f s m) (pbDecodeStep fields g s n) := by
  unfold pbDecodeStep
  split
  · exact .stop true h
  · split
    · exact .stop true h
    · exact .stop false h
    · rename_i wireType tag rest _
      split
      · split
        · exact .stop false h
        · exact .next _ h
      · rename_i field _
        have hfield := decodeField_related hfg field wireType rest h
        generalize decodeField f field wireType rest m = p at hfield
        generalize decodeField g field wireType rest n = q at hfield
        obtain ⟨rest₁, m'⟩ := p
        obtain ⟨rest₂, n'⟩ := q
        obtain ⟨hrest, hm⟩ := hfield
        cases hrest
        cases rest₁ with
        | none => exact .stop false hm
        | some rest => exact .next rest hm

/-- Two runs over the same bytes whose callbacks answer alike. -/
theorem pbDecodeNoinit_related (hfg : ∀ k, Option.Rel (CallbacksRelated R) (f k) (g k))
    (s : List UInt8) (h : m.Related R n) :
    (pbDecodeNoinit fields f s m).1 = (pbDecodeNoinit fields g s n).1 ∧
      (pbDecodeNoinit fields f s m).2.Related R (pbDecodeNoinit fields g s n).2 := by
  induction hlen : s.length using Nat.strongRecOn generalizing s m n with
  | ind l ih =>
      have hstep : StepsRelated R (pbDecodeStep fields f s m) (pbDecodeStep fields g s n) :=
        pbDecodeStep_related hfg s h
      generalize hm : pbDecodeStep fields f s m = p at hstep
      generalize hn : pbDecodeStep fields g s n = q at hstep
      cases hstep with
      | stop status h' =>
          rw [pbDecodeNoinit_stop hm, pbDecodeNoinit_stop hn]
          exact ⟨rfl, h'⟩
      | next s' h' =>
          rw [pbDecodeNoinit_next hm, pbDecodeNoinit_next hn]
          exact ih s'.length (hlen ▸ pbDecodeStep_length hm) s' h' rfl

theorem pbDecode_related (hfg : ∀ k, Option.Rel (CallbacksRelated R) (f k) (g k))
    (s : List UInt8) {a : σ} {b : τ} (h : R a b) :
    (pbDecode fields f s a).1 = (pbDecode fields g s b).1 ∧
      (pbDecode fields f s a).2.Related R (pbDecode fields g s b).2 :=
  pbDecodeNoinit_related hfg s ⟨rfl, h⟩

end related

/-! ### Encoding -/

/-- `pb_ostream_t`: the bytes stored, and `bytes_written`. -/
structure PbOstream where
  maxSize : ℕ
  state : List UInt8 := []
  bytesWritten : ℕ := 0

/-- A function that writes to the stream and says whether it went well. -/
abbrev PbWriter := PbOstream → Bool × PbOstream

/-- `if (!f(stream)) return false; return g(stream);`. -/
def PbWriter.andThen (f g : PbWriter) : PbWriter := fun s =>
  if (f s).1 then g (f s).2 else f s

def PbWriter.done : PbWriter := fun s => (true, s)

/-- `pb_write`. -/
def pbWrite (buf : List UInt8) : PbWriter := fun s =>
  if (s.bytesWritten + buf.length) % 2 ^ 32 > s.maxSize then (false, s)
  else (true, { s with
    state := s.state ++ buf
    bytesWritten := (s.bytesWritten + buf.length) % 2 ^ 32 })

/-- `pb_encode_varint`. -/
def pbEncodeVarint (value : ℕ) : PbWriter := pbWrite (Varint.encode value)

/-- The wire type of `pb_encode_tag_for_field`. -/
def PbType.wireType : PbType → ℕ
  | int32 => pbWtVarint
  | string => pbWtString
  | bytes => pbWtString

/-- `pb_encode_tag_for_field`. -/
def pbEncodeTagForField {μ : Type} (field : PbField μ) : PbWriter :=
  pbEncodeVarint (8 * field.tag + field.type.wireType)

/-- `pb_encode_string`. -/
def pbEncodeString (buffer : List UInt8) : PbWriter :=
  (pbEncodeVarint buffer.length).andThen (pbWrite buffer)

section encode
variable {μ : Type}

/-- An encoding callback. -/
abbrev EncodeCallback (μ : Type) := PbField μ → PbWriter

/-- `encode_basic_field` with `pb_enc_varint`, for an `int32` without `has_` flag: a zero is not
written. -/
def encodeBasicField (field : PbField μ) (value : BitVec 32) : PbWriter :=
  if value = 0 then .done
  else (pbEncodeTagForField field).andThen (pbEncodeVarint (value.signExtend 64).toNat)

/-- `encode_callback_field`. -/
def encodeCallbackField (encode : Option (EncodeCallback μ)) (field : PbField μ) : PbWriter :=
  match encode with
  | none => .done
  | some encode => encode field

variable (scalar : μ → BitVec 32) (funcs : μ → Option (EncodeCallback μ))

/-- `encode_field`. -/
def encodeField (field : PbField μ) : PbWriter :=
  match field.type with
  | .int32 => encodeBasicField field (scalar field.member)
  | .string => encodeCallbackField (funcs field.member) field
  | .bytes => encodeCallbackField (funcs field.member) field

/-- `pb_encode`. -/
def pbEncode : List (PbField μ) → PbWriter
  | [] => .done
  | field :: fields => (encodeField scalar funcs field).andThen (pbEncode fields)

end encode

/-! ### The bytes of a message -/

/-- A writer that appends `bs` to every stream that has room for them. -/
def PbWriter.Appends (f : PbWriter) (bs : List UInt8) : Prop :=
  ∀ s : PbOstream, s.bytesWritten + bs.length ≤ s.maxSize → s.maxSize < 2 ^ 32 →
    f s = (true, { s with
      state := s.state ++ bs
      bytesWritten := s.bytesWritten + bs.length })

theorem appends_done : PbWriter.done.Appends [] := fun s _ _ => by
  rw [List.append_nil]
  rfl

theorem appends_pbWrite (buf : List UInt8) : (pbWrite buf).Appends buf := fun s hroom hmax => by
  unfold pbWrite
  rw [Nat.mod_eq_of_lt (by omega), if_neg (by omega)]

theorem PbWriter.Appends.andThen {f g : PbWriter} {as bs : List UInt8} (hf : f.Appends as)
    (hg : g.Appends bs) : (f.andThen g).Appends (as ++ bs) := fun s hroom hmax => by
  rw [List.length_append] at hroom
  have hs := hg { s with
    state := s.state ++ as
    bytesWritten := s.bytesWritten + as.length } (by dsimp only; omega) hmax
  unfold PbWriter.andThen
  rw [hf s (by omega) hmax, if_pos rfl, hs]
  dsimp only
  rw [List.append_assoc, List.length_append, Nat.add_assoc]

theorem appends_pbEncodeString (buffer : List UInt8) :
    (pbEncodeString buffer).Appends (Varint.encode buffer.length ++ buffer) :=
  (appends_pbWrite _).andThen (appends_pbWrite _)

section bytes
variable {μ : Type} (scalar : μ → BitVec 32) (payload : μ → List UInt8)

/-- The tag of a field. -/
def PbField.tagBytes (field : PbField μ) : List UInt8 :=
  Varint.encode (8 * field.tag + field.type.wireType)

/-- The bytes of a field, from the values of the static members and what the callbacks write. -/
def PbField.bytes (field : PbField μ) : List UInt8 :=
  match field.type with
  | .int32 =>
    if scalar field.member = 0 then []
    else field.tagBytes ++ Varint.encode ((scalar field.member).signExtend 64).toNat
  | _ =>
    field.tagBytes ++
      (Varint.encode (payload field.member).length ++ payload field.member)

/-- The bytes of a message. -/
def messageBytes : List (PbField μ) → List UInt8
  | [] => []
  | field :: fields => field.bytes scalar payload ++ messageBytes fields

variable {scalar payload} {funcs : μ → Option (EncodeCallback μ)} {field : PbField μ}
  {fields : List (PbField μ)}

theorem bytes_of_static (htype : field.type = .int32) : field.bytes scalar payload =
    if scalar field.member = 0 then []
    else field.tagBytes ++ Varint.encode ((scalar field.member).signExtend 64).toNat := by
  unfold PbField.bytes
  rw [htype]

theorem bytes_of_callback (htype : field.type ≠ .int32) : field.bytes scalar payload =
    field.tagBytes ++ (Varint.encode (payload field.member).length ++ payload field.member) := by
  unfold PbField.bytes
  split
  · exact absurd ‹_› htype
  · rfl

theorem wireType_of_callback (htype : field.type ≠ .int32) : field.type.wireType = pbWtString := by
  cases h : field.type with
  | int32 => exact absurd h htype
  | string => rfl
  | bytes => rfl

/-- A zero is left out. -/
theorem messageBytes_cons_zero (htype : field.type = .int32) (h : scalar field.member = 0) :
    messageBytes scalar payload (field :: fields) = messageBytes scalar payload fields := by
  rw [messageBytes, bytes_of_static htype, if_pos h, List.nil_append]

/-- A short field with callback has one byte for its tag and one for its length. -/
theorem messageBytes_cons_short (htype : field.type ≠ .int32) (htag : field.tag < 15)
    {content : List UInt8} (h : payload field.member = content) (hlen : content.length < 128) :
    messageBytes scalar payload (field :: fields) =
      UInt8.ofNat (8 * field.tag + 2) :: UInt8.ofNat content.length ::
        (content ++ messageBytes scalar payload fields) := by
  rw [messageBytes, bytes_of_callback htype, h, PbField.tagBytes, wireType_of_callback htype,
    pbWtString, Varint.encode_of_lt (by omega), Varint.encode_of_lt hlen]
  rfl

/-- `pb_encode` writes the bytes of the message, if the callbacks write theirs. -/
theorem appends_pbEncode
    (h : ∀ field ∈ fields, field.type ≠ .int32 → ∃ encode, funcs field.member = some encode ∧
      (encode field).Appends (field.tagBytes ++
        (Varint.encode (payload field.member).length ++ payload field.member))) :
    (pbEncode scalar funcs fields).Appends (messageBytes scalar payload fields) := by
  induction fields with
  | nil => exact appends_done
  | cons field fields ih =>
      refine PbWriter.Appends.andThen ?_ (ih fun f hf => h f (List.mem_cons_of_mem _ hf))
      have hfield := h field (List.mem_cons_self ..)
      unfold encodeField PbField.bytes
      cases ht : field.type with
      | int32 =>
          dsimp only
          unfold encodeBasicField
          split
          · exact appends_done
          · exact (appends_pbWrite _).andThen (appends_pbWrite _)
      | string =>
          obtain ⟨encode, hsome, happ⟩ := hfield (by rw [ht]; decide)
          dsimp only
          rw [hsome]
          exact happ
      | bytes =>
          obtain ⟨encode, hsome, happ⟩ := hfield (by rw [ht]; decide)
          dsimp only
          rw [hsome]
          exact happ

end bytes

/-! ### A message read back -/

theorem tagBytes_append_ne_nil {μ : Type} (field : PbField μ) (bs : List UInt8) :
    field.tagBytes ++ bs ≠ [] := by
  unfold PbField.tagBytes Varint.encode
  split
  · exact List.cons_ne_nil _ _
  · exact List.cons_ne_nil _ _

theorem pbDecodeTag_tagBytes {μ : Type} {field : PbField μ} (hpos : 0 < field.tag)
    (hlt : field.tag < 2 ^ 29) (rest : List UInt8) :
    pbDecodeTag (field.tagBytes ++ rest) = .tag field.type.wireType field.tag rest := by
  have hwire : field.type.wireType ≤ 2 := by
    cases field.type <;> decide
  unfold pbDecodeTag PbField.tagBytes
  rw [Varint.decode_encode (by decide) (by omega)]
  dsimp only
  rw [if_neg (by omega)]
  congr 1
  · omega
  · omega

section receive
variable {μ σ : Type} [DecidableEq μ]

/-- The fields of a message given to their readers, one after the other. -/
def receive (funcs : μ → Option (DecodeCallback σ)) (scalar : μ → BitVec 32)
    (payload : μ → List UInt8) : List (PbField μ) → PbMessage μ σ → Bool × PbMessage μ σ
  | [], m => (true, m)
  | field :: fields, m =>
    match field.type with
    | .int32 => receive funcs scalar payload fields
        { m with scalar := Function.update m.scalar field.member (scalar field.member) }
    | _ =>
      match funcs field.member with
      | none => receive funcs scalar payload fields m
      | some decode =>
        if (decode (payload field.member) m.env).1 then
          receive funcs scalar payload fields
            { m with env := (decode (payload field.member) m.env).2 }
        else (false, { m with env := (decode (payload field.member) m.env).2 })

section receive
variable {funcs : μ → Option (DecodeCallback σ)} {scalar : μ → BitVec 32} {payload : μ → List UInt8}
  {field : PbField μ} {fields : List (PbField μ)} {m : PbMessage μ σ}

theorem receive_static (htype : field.type = .int32) :
    receive funcs scalar payload (field :: fields) m = receive funcs scalar payload fields
      { m with scalar := Function.update m.scalar field.member (scalar field.member) } := by
  rw [receive, htype]

theorem receive_callback (htype : field.type ≠ .int32) {decode : DecodeCallback σ}
    (hdecode : funcs field.member = some decode) :
    receive funcs scalar payload (field :: fields) m =
      if (decode (payload field.member) m.env).1 then
        receive funcs scalar payload fields
          { m with env := (decode (payload field.member) m.env).2 }
      else (false, { m with env := (decode (payload field.member) m.env).2 }) := by
  rw [receive]
  split
  · exact absurd ‹_› htype
  · rw [hdecode]

end receive

theorem pbRead_append (buf rest : List UInt8) :
    pbRead buf.length (buf ++ rest) = some (buf, rest) := by
  unfold pbRead
  rw [List.length_append, if_neg (by omega), List.take_left, List.drop_left]

theorem pbMakeStringSubstream_append {buf : List UInt8} (h : buf.length < 2 ^ 32)
    (rest : List UInt8) :
    pbMakeStringSubstream (Varint.encode buf.length ++ buf ++ rest) = some (buf, rest) := by
  unfold pbMakeStringSubstream
  rw [List.append_assoc, Varint.decode_encode (by decide) h]
  exact pbRead_append buf rest

/-- An `int32` is written as its sign extension, and read back from the low bits. -/
theorem ofNat_signExtend (v : BitVec 32) : BitVec.ofNat 32 (v.signExtend 64).toNat = v := by
  rw [BitVec.ofNat_toNat]
  ext i hi
  rw [BitVec.getElem_setWidth, BitVec.getLsbD_signExtend, if_pos hi]
  simp [show i < 64 by omega, hi]

variable {fields : List (PbField μ)} {funcs : μ → Option (DecodeCallback σ)}
  {scalar : μ → BitVec 32} {payload : μ → List UInt8} {field : PbField μ} {m : PbMessage μ σ}

/-- A static field that is read. -/
theorem pbDecodeStep_scalar (hfind : (fields.find? fun f => f.tag = field.tag) = some field)
    (hpos : 0 < field.tag) (hlt : field.tag < 2 ^ 29) (htype : field.type = .int32)
    (hne : scalar field.member ≠ 0) (rest : List UInt8) :
    pbDecodeStep fields funcs (field.bytes scalar payload ++ rest) m = .next rest
      { m with scalar := Function.update m.scalar field.member (scalar field.member) } := by
  have hfield : decodeField funcs field field.type.wireType
      (Varint.encode ((scalar field.member).signExtend 64).toNat ++ rest) m = (some rest,
        { m with scalar := Function.update m.scalar field.member (scalar field.member) }) := by
    unfold decodeField
    rw [htype]
    dsimp only
    unfold decodeStaticField
    rw [Varint.decode_encode (by decide) (BitVec.isLt _)]
    dsimp only
    rw [ofNat_signExtend]
  unfold pbDecodeStep
  rw [bytes_of_static htype, if_neg hne, List.append_assoc, if_neg (tagBytes_append_ne_nil _ _),
    pbDecodeTag_tagBytes hpos hlt]
  dsimp only
  rw [hfind]
  dsimp only
  rw [hfield]

/-- A field with callback that is read. -/
theorem pbDecodeStep_payload (hfind : (fields.find? fun f => f.tag = field.tag) = some field)
    (hpos : 0 < field.tag) (hlt : field.tag < 2 ^ 29) (htype : field.type ≠ .int32)
    {decode : DecodeCallback σ} (hdecode : funcs field.member = some decode)
    (hlen : (payload field.member).length < 2 ^ 32) (rest : List UInt8) :
    pbDecodeStep fields funcs (field.bytes scalar payload ++ rest) m =
      if (decode (payload field.member) m.env).1 then
        .next rest { m with env := (decode (payload field.member) m.env).2 }
      else .stop false { m with env := (decode (payload field.member) m.env).2 } := by
  have hfield : decodeField funcs field field.type.wireType
      (Varint.encode (payload field.member).length ++ payload field.member ++ rest) m =
        (if (decode (payload field.member) m.env).1 then some rest else none,
          { m with env := (decode (payload field.member) m.env).2 }) := by
    have hcall : decodeCallbackField (funcs field.member) field.type.wireType
        (Varint.encode (payload field.member).length ++ payload field.member ++ rest) m =
          (if (decode (payload field.member) m.env).1 then some rest else none,
            { m with env := (decode (payload field.member) m.env).2 }) := by
      unfold decodeCallbackField
      rw [hdecode, wireType_of_callback htype, if_pos rfl, pbMakeStringSubstream_append hlen]
    unfold decodeField
    split
    · exact absurd ‹_› htype
    · exact hcall
    · exact hcall
  unfold pbDecodeStep
  rw [bytes_of_callback htype, List.append_assoc, if_neg (tagBytes_append_ne_nil _ _),
    pbDecodeTag_tagBytes hpos hlt]
  dsimp only
  rw [hfind]
  dsimp only
  cases hanswer : (decode (payload field.member) m.env).1 with
  | true =>
      rw [hfield, hanswer]
      rfl
  | false =>
      rw [hfield, hanswer]
      rfl

/-- The fields of a message that can be read back from their bytes. -/
structure Readable (fields : List (PbField μ)) (funcs : μ → Option (DecodeCallback σ))
    (payload : μ → List UInt8) (field : PbField μ) : Prop where
  find : (fields.find? fun f => f.tag = field.tag) = some field
  pos : 0 < field.tag
  lt : field.tag < 2 ^ 29
  callback : field.type ≠ .int32 → (funcs field.member).isSome
  length : (payload field.member).length < 2 ^ 32

/-- A message read back from its bytes gives every field to its reader. -/
theorem pbDecodeNoinit_messageBytes {fs : List (PbField μ)}
    (h : ∀ field ∈ fs, Readable fields funcs payload field) (hnodup : (fs.map (·.member)).Nodup)
    (hzero : ∀ field ∈ fs, m.scalar field.member = 0) :
    pbDecodeNoinit fields funcs (messageBytes scalar payload fs) m =
      receive funcs scalar payload fs m := by
  induction fs generalizing m with
  | nil => exact pbDecodeNoinit_nil
  | cons field fs ih =>
      obtain ⟨hfind, hpos, hlt, hcallback, hlen⟩ := h field (List.mem_cons_self ..)
      obtain ⟨hnot, hnodup⟩ := List.nodup_cons.mp hnodup
      have hrest : ∀ f ∈ fs, Readable fields funcs payload f :=
        fun f hf => h f (List.mem_cons_of_mem _ hf)
      have hother : ∀ f ∈ fs, f.member ≠ field.member := fun f hf he =>
        hnot (List.mem_map.mpr ⟨f, hf, he⟩)
      have hzero' : ∀ f ∈ fs, m.scalar f.member = 0 :=
        fun f hf => hzero f (List.mem_cons_of_mem _ hf)
      by_cases htype : field.type = .int32
      · have hupdate : ∀ f ∈ fs,
            Function.update m.scalar field.member (scalar field.member) f.member = 0 :=
          fun f hf => by rw [Function.update_of_ne (hother f hf), hzero' f hf]
        rw [receive_static htype]
        by_cases hv : scalar field.member = 0
        · have hsame : Function.update m.scalar field.member (scalar field.member) = m.scalar := by
            rw [hv, ← hzero field (List.mem_cons_self ..), Function.update_eq_self]
          rw [messageBytes_cons_zero htype hv, hsame]
          exact ih hrest hnodup hzero'
        · rw [messageBytes, pbDecodeNoinit_next (pbDecodeStep_scalar hfind hpos hlt htype hv _)]
          exact ih hrest hnodup hupdate
      · obtain ⟨decode, hdecode⟩ := Option.isSome_iff_exists.mp (hcallback htype)
        have hstep : pbDecodeStep fields funcs
            (field.bytes scalar payload ++ messageBytes scalar payload fs) m = _ :=
          pbDecodeStep_payload hfind hpos hlt htype hdecode hlen _
        rw [receive_callback htype hdecode, messageBytes]
        cases hanswer : (decode (payload field.member) m.env).1 with
        | true =>
            rw [hanswer, if_pos rfl] at hstep
            rw [pbDecodeNoinit_next hstep, if_pos rfl]
            exact ih hrest hnodup hzero'
        | false =>
            rw [hanswer, if_neg Bool.false_ne_true] at hstep
            rw [pbDecodeNoinit_stop hstep, if_neg Bool.false_ne_true]

end receive

end ErgoDock
