import ErgoDock.QsProtobuf

/-! # Where decoding a message stores (`string_read`, `bytes_read`)

Neither callback knows the size of its array: each stores what its field carries, a byte for every
varint or for every byte.  So decoding stays in its arrays exactly if no field that is come to
carries more than its array has room for (`decode_in_bounds_iff`).

What the fields carry is told by `delivered`, a run of `pb_decode` whose callbacks only note what
they are given.  `decode_eq` gives the object after the decoding from it: the arrays overlaid with
what was carried, in order, and the assignments on top. -/

namespace ErgoDock

open RawMemory

/-! ### What the fields carry -/

namespace QsCallback

/-- The bytes a callback stores of a field. -/
def values : QsCallback → List UInt8 → List UInt8
  | string _, field => (Varint.values 64 field).1.map UInt8.ofNat
  | bytes _, field => field

/-- A `string` field is a list of varints. -/
def accepts : QsCallback → List UInt8 → Bool
  | string _, field => (Varint.values 64 field).2
  | bytes _, _ => true

/-- How much a field carries: its varints, or its bytes. -/
def carried : QsCallback → List UInt8 → ℕ
  | string _, field => (Varint.values 64 field).1.length
  | bytes _, field => field.length

theorem length_values (c : QsCallback) (field : List UInt8) :
    (c.values field).length = c.carried field := by
  cases c with
  | string arg => exact List.length_map _
  | bytes arg => rfl

/-- The callback that only notes what it is given. -/
def noting (c : QsCallback) : DecodeCallback (List (QsCallback × List UInt8)) := fun field log =>
  (c.accepts field, log ++ [(c, field)])

end QsCallback

namespace QsMessage
variable (t : QsMessage)

/-- The callbacks of a message structure that is only noted. -/
def noters (k : MsgMember) : Option (DecodeCallback (List (QsCallback × List UInt8))) :=
  (t.callbacks.lookup k).map QsCallback.noting

/-- What `pb_decode` delivers of a message: the static members, and the fields with their
callbacks. -/
def delivered (msg : List UInt8) : Bool × PbMessage MsgMember (List (QsCallback × List UInt8)) :=
  pbDecode t.fields t.noters msg []

/-- The stores of a field. -/
def storesOf (d : QsCallback × List UInt8) : List (ObjMember × ℕ) :=
  (List.range (d.1.carried d.2)).map fun i => (d.1.arg, i)

/-- The memory after a field. -/
def place (m : Mem) (d : QsCallback × List UInt8) : Mem :=
  overlay m (t.addr d.1.arg) (d.1.values d.2)

/-- Decoding stores in the arrays only, every array is set from its own fields and every other
member from its own, what stands behind the object is left alone, and the answer is one of two. -/
structure DecodeSafe (msg : List UInt8) (obj : Mem) : Prop where
  bounded : ∀ w ∈ (t.decode msg obj).2.stores, w.2 < t.sizeOf w.1
  arrays : ∀ c ∈ t.callbacks.map Prod.snd, ∀ x, t.addr c.arg ≤ x →
    x < t.addr c.arg + t.sizeOf c.arg → (t.decode msg obj).2.mem x =
      ((t.delivered msg).2.env.filter fun d => d.1 = c).foldl t.place obj x
  scalars : ∀ a ∈ t.assigns,
    word (t.decode msg obj).2.mem (t.addr a.2) = (t.delivered msg).2.scalar a.1
  outside : ∀ x, t.objSize ≤ x → (t.decode msg obj).2.mem x = obj x
  answer : (t.decode msg obj).1 = .success ∨ (t.decode msg obj).1 = .errorInternal

/-- No field carries more than its array has room for. -/
def FitsArrays (msg : List UInt8) : Prop :=
  ∀ d ∈ (t.delivered msg).2.env, d.1.carried d.2 ≤ t.sizeOf d.1.arg

end QsMessage

/-! ### The callbacks -/

/-- The stores of a loop that is at `i`. -/
def ObjStore.storeAll (o : ObjStore) (dest : ObjMember) (base i : ℕ) (values : List UInt8) :
    ObjStore where
  mem := overlay o.mem (base + i) values
  stores := o.stores ++ (List.range' i values.length).map fun j => (dest, j)

section callbacks
variable (o : ObjStore) (dest : ObjMember) (base i : ℕ)

theorem storeAll_nil : o.storeAll dest base i [] = o := by
  unfold ObjStore.storeAll
  rw [overlay_nil]
  exact congrArg _ (List.append_nil _)

theorem storeAll_cons (value : UInt8) (values : List UInt8) :
    (o.store dest base i value).storeAll dest base (i + 1) values =
      o.storeAll dest base i (value :: values) := by
  unfold ObjStore.storeAll ObjStore.store
  dsimp only
  rw [← Nat.add_assoc, overlay_cons, List.length_cons, List.range'_succ, List.map_cons,
    List.append_assoc]
  rfl

theorem bytesRead_eq (field : List UInt8) :
    bytesRead dest base i field o = (true, o.storeAll dest base i field) := by
  induction field generalizing i o with
  | nil => rw [storeAll_nil, bytesRead]
  | cons byte field ih => rw [bytesRead, ih, storeAll_cons]

theorem stringRead_eq (field : List UInt8) :
    stringRead dest base i field o = ((Varint.values 64 field).2,
      o.storeAll dest base i ((Varint.values 64 field).1.map UInt8.ofNat)) := by
  induction hlen : field.length using Nat.strongRecOn generalizing field i o with
  | ind n ih =>
      rw [stringRead]
      by_cases hnil : field = []
      · rw [if_pos hnil, hnil, Varint.values_nil, List.map_nil, storeAll_nil]
      · rw [if_neg hnil]
        split
        · rename_i e hd
          rw [Varint.values_of_error hnil hd, List.map_nil, storeAll_nil]
        · rename_i value rest hd
          rw [Varint.values_of_ok hd, ih rest.length (hlen ▸ Varint.decode_length hd) _ _ rest rfl,
            List.map_cons, storeAll_cons]

end callbacks

/-! ### The object after the decoding -/

namespace QsMessage
variable {t : QsMessage} {msg : List UInt8} {obj : Mem}

theorem decoder_eq (c : QsCallback) (field : List UInt8) (o : ObjStore) :
    t.decoder c field o =
      (c.accepts field, o.storeAll c.arg (t.addr c.arg) 0 (c.values field)) := by
  cases c with
  | string arg => exact stringRead_eq o arg _ 0 field
  | bytes arg => exact bytesRead_eq o arg _ 0 field

/-- The object that was decoded into, beside what was noted. -/
def Noted (t : QsMessage) (obj : Mem) (o : ObjStore) (log : List (QsCallback × List UInt8)) :
    Prop :=
  o = ⟨log.foldl t.place obj, log.flatMap storesOf⟩ ∧
    ∀ d ∈ log, d.1 ∈ t.callbacks.map Prod.snd

theorem callbacks_noted (k : MsgMember) :
    Option.Rel (CallbacksRelated (Noted t obj)) (t.decoders k) (t.noters k) := by
  unfold decoders noters
  cases hk : t.callbacks.lookup k with
  | none => exact .none
  | some c =>
      refine .some fun field o log h => ?_
      obtain ⟨rfl, hlog⟩ := h
      have hmem : c ∈ t.callbacks.map Prod.snd := List.mem_map_of_mem (lookup_mem hk)
      rw [decoder_eq]
      refine ⟨rfl, ?_, ?_⟩
      · unfold ObjStore.storeAll QsCallback.noting storesOf place
        dsimp only
        rw [List.foldl_append, List.flatMap_append, Nat.add_zero, ← List.range_eq_range',
          c.length_values]
        simp
      · intro d hd
        rcases List.mem_append.mp hd with hd | hd
        · exact hlog d hd
        · rw [List.mem_singleton.mp hd]
          exact hmem

theorem noted_delivered (t : QsMessage) (msg : List UInt8) (obj : Mem) :
    (pbDecode t.fields t.decoders msg { mem := obj }).1 = (t.delivered msg).1 ∧
      PbMessage.Related (Noted t obj) (pbDecode t.fields t.decoders msg { mem := obj }).2
        (t.delivered msg).2 :=
  pbDecode_related callbacks_noted msg ⟨rfl, fun _ hd => absurd hd List.not_mem_nil⟩

/-- What is delivered is delivered to the callbacks of the type. -/
theorem mem_callbacks_of_delivered {d : QsCallback × List UInt8}
    (hd : d ∈ (t.delivered msg).2.env) : d.1 ∈ t.callbacks.map Prod.snd :=
  (noted_delivered t msg fun _ => 0).2.2.2 d hd

/-- Decoding, told from what is delivered. -/
theorem decode_eq (t : QsMessage) (msg : List UInt8) (obj : Mem) :
    t.decode msg obj = (qsRetCode (t.delivered msg).1,
      { mem := t.assignBack (t.delivered msg).2.scalar ((t.delivered msg).2.env.foldl t.place obj)
        stores := (t.delivered msg).2.env.flatMap storesOf }) := by
  obtain ⟨hstatus, hscalar, henv, -⟩ := noted_delivered t msg obj
  unfold decode
  dsimp only
  rw [hstatus, hscalar, henv]

/-! ### The assignments -/

/-- Assignments to members of 4 bytes, one after the other. -/
theorem foldl_setWord_outside {scalar : MsgMember → BitVec 32} {l : List (MsgMember × ObjMember)}
    {m : Mem} {x : ℕ} (h : ∀ a ∈ l, x < t.addr a.2 ∨ t.addr a.2 + 4 ≤ x) :
    l.foldl (fun m a => setWord m (t.addr a.2) (scalar a.1)) m x = m x :=
  foldl_untouched (fun a ha _ => setWord_outside _ (h a ha)) m

theorem assignBack_outside {scalar : MsgMember → BitVec 32} {m : Mem} {x : ℕ}
    (h : ∀ a ∈ t.assigns, x < t.addr a.2 ∨ t.addr a.2 + t.sizeOf a.2 ≤ x) :
    t.assignBack scalar m x = m x :=
  foldl_setWord_outside fun a ha => sizeOf_assigned ha ▸ h a ha

/-- The assignments do not reach the arrays. -/
theorem assignBack_array {scalar : MsgMember → BitVec 32} {m : Mem} {x : ℕ} {c : QsCallback}
    (hc : c ∈ t.callbacks.map Prod.snd) (hlo : t.addr c.arg ≤ x)
    (hhi : x < t.addr c.arg + t.sizeOf c.arg) : t.assignBack scalar m x = m x := by
  refine assignBack_outside fun a ha => ?_
  have hdisj := addr_disjoint (t := t) (arg_ne_assigned hc ha)
  omega

theorem word_foldl_setWord {scalar : MsgMember → BitVec 32} {l : List (MsgMember × ObjMember)}
    (hl : ∀ a ∈ l, a ∈ t.assigns) (hnodup : (l.map Prod.snd).Nodup) {m : Mem}
    {a : MsgMember × ObjMember} (ha : a ∈ l) :
    word (l.foldl (fun m a => setWord m (t.addr a.2) (scalar a.1)) m) (t.addr a.2) =
      scalar a.1 := by
  induction l generalizing m with
  | nil => cases ha
  | cons b l ih =>
      obtain ⟨hnot, hnodup⟩ := List.nodup_cons.mp hnodup
      have hl' : ∀ a ∈ l, a ∈ t.assigns := fun a ha => hl a (List.mem_cons_of_mem _ ha)
      rcases List.mem_cons.mp ha with rfl | ha
      · -- the later assignments are to other members
        rw [List.foldl_cons]
        refine Eq.trans (word_congr fun i hi => foldl_setWord_outside fun c hc => ?_)
          (word_setWord m (t.addr a.2) (scalar a.1))
        have hne : a.2 ≠ c.2 := fun he => hnot (List.mem_map.mpr ⟨c, hc, he.symm⟩)
        have hdisj := addr_disjoint (t := t) hne
        rw [sizeOf_assigned (hl a (List.mem_cons_self ..)), sizeOf_assigned (hl' c hc)] at hdisj
        omega
      · exact ih hl' hnodup ha

theorem word_assignBack {scalar : MsgMember → BitVec 32} {m : Mem} {a : MsgMember × ObjMember}
    (ha : a ∈ t.assigns) : word (t.assignBack scalar m) (t.addr a.2) = scalar a.1 :=
  word_foldl_setWord (fun _ h => h) assigns_nodup ha

/-! ### The arrays -/

theorem place_outside {d : QsCallback × List UInt8} {m : Mem} {x : ℕ}
    (h : x < t.addr d.1.arg ∨ t.addr d.1.arg + d.1.carried d.2 ≤ x) : t.place m d x = m x := by
  refine overlay_outside ?_
  rw [d.1.length_values]
  exact h

/-- What was carried for an array is laid over what it held. -/
theorem foldl_place_congr {log : List (QsCallback × List UInt8)} {m m' : Mem} {x : ℕ}
    (h : m x = m' x) : log.foldl t.place m x = log.foldl t.place m' x := by
  induction log generalizing m m' with
  | nil => exact h
  | cons d log ih => exact ih (overlay_congr h)

/-- The stores of fields that end before `x`, or begin behind it, do not matter there. -/
theorem foldl_place_filter {log : List (QsCallback × List UInt8)} {m : Mem} {x : ℕ}
    {c : QsCallback} (h : ∀ d ∈ log, d.1 ≠ c →
      x < t.addr d.1.arg ∨ t.addr d.1.arg + d.1.carried d.2 ≤ x) :
    log.foldl t.place m x = (log.filter fun d => d.1 = c).foldl t.place m x := by
  induction log generalizing m with
  | nil => rfl
  | cons d log ih =>
      have ih := ih (m := t.place m d) fun e he => h e (List.mem_cons_of_mem _ he)
      rw [List.foldl_cons, ih]
      by_cases hd : d.1 = c
      · rw [List.filter_cons_of_pos (by simpa using hd), List.foldl_cons]
      · rw [List.filter_cons_of_neg (by simpa using hd)]
        exact foldl_place_congr (place_outside (h d (List.mem_cons_self ..) hd))

theorem foldl_place_outside {log : List (QsCallback × List UInt8)} {m : Mem} {x : ℕ}
    (h : ∀ d ∈ log, x < t.addr d.1.arg ∨ t.addr d.1.arg + d.1.carried d.2 ≤ x) :
    log.foldl t.place m x = m x :=
  foldl_untouched (fun d hd _ => place_outside (h d hd)) m

/-! ### Staying inside -/

/-- The stores stay inside the arrays if and only if the fields fit. -/
theorem bounded_iff : (∀ w ∈ (t.decode msg obj).2.stores, w.2 < t.sizeOf w.1) ↔
    t.FitsArrays msg := by
  rw [decode_eq]
  dsimp only
  constructor
  · intro h d hd
    by_contra hlt
    have hstore : (d.1.arg, t.sizeOf d.1.arg) ∈ (t.delivered msg).2.env.flatMap storesOf :=
      List.mem_flatMap.mpr ⟨d, hd, List.mem_map.mpr
        ⟨_, List.mem_range.mpr (Nat.lt_of_not_le hlt), rfl⟩⟩
    exact Nat.lt_irrefl _ (h _ hstore)
  · intro h w hw
    obtain ⟨d, hd, hw⟩ := List.mem_flatMap.mp hw
    obtain ⟨i, hi, rfl⟩ := List.mem_map.mp hw
    exact Nat.lt_of_lt_of_le (List.mem_range.mp hi) (h d hd)

theorem decodeSafe_iff (t : QsMessage) (msg : List UInt8) (obj : Mem) :
    t.DecodeSafe msg obj ↔ t.FitsArrays msg := by
  refine ⟨fun h => bounded_iff.mp h.bounded, fun h => ?_⟩
  have hmem : (t.decode msg obj).2.mem = t.assignBack (t.delivered msg).2.scalar
      ((t.delivered msg).2.env.foldl t.place obj) := by
    rw [decode_eq]
  constructor
  · exact bounded_iff.mpr h
  · intro c hc x hlo hhi
    rw [hmem, assignBack_array hc hlo hhi]
    refine foldl_place_filter fun d hd hne => ?_
    have harg : d.1.arg ≠ c.arg := fun he =>
      hne (arg_injective (mem_callbacks_of_delivered hd) hc he)
    have hdisj := addr_disjoint (t := t) harg
    have hfit := h d hd
    omega
  · intro a ha
    rw [hmem]
    exact word_assignBack ha
  · intro x hx
    rw [hmem, assignBack_outside fun a ha => ?_]
    · refine foldl_place_outside fun d hd => ?_
      have hfit := h d hd
      have hle := addr_add_sizeOf_le (t := t) d.1.arg
      omega
    · have hle := addr_add_sizeOf_le (t := t) a.2
      omega
  · rw [decode_eq]
    dsimp only
    unfold qsRetCode
    split
    · exact .inl rfl
    · exact .inr rfl

/-! ### Messages of known fields -/

/-- What the field `f` carries for a callback, if a callback's field carries its `payload`. -/
def fieldCarries (t : QsMessage) (payload : MsgMember → List UInt8) (f : PbField MsgMember) :
    List (QsCallback × List UInt8) :=
  match f.type with
  | .int32 => []
  | _ => ((t.callbacks.lookup f.member).map fun c => (c, payload f.member)).toList

/-- What the fields `fs` carry. -/
def carriedBy (t : QsMessage) (payload : MsgMember → List UInt8)
    (fs : List (PbField MsgMember)) : List (QsCallback × List UInt8) :=
  fs.flatMap (t.fieldCarries payload)

/-- The static members after the fields `fs`. -/
def scalarsOf (scalar : MsgMember → BitVec 32) (fs : List (PbField MsgMember))
    (start : MsgMember → BitVec 32) : MsgMember → BitVec 32 :=
  fs.foldl (fun sc f => if f.type = .int32 then Function.update sc f.member (scalar f.member)
    else sc) start

section known
variable {scalar : MsgMember → BitVec 32} {payload : MsgMember → List UInt8}
  {fs : List (PbField MsgMember)}

theorem find_tag {f : PbField MsgMember} (hf : f ∈ t.fields) :
    (t.fields.find? fun g => g.tag = f.tag) = some f := by
  have hsome : (t.fields.find? fun g => g.tag = f.tag).isSome := by
    rw [List.find?_isSome]
    exact ⟨f, hf, by simp⟩
  obtain ⟨g, hg⟩ := Option.isSome_iff_exists.mp hsome
  have htag : g.tag = f.tag := by simpa using List.find?_some hg
  rw [hg, List.inj_on_of_nodup_map t.tags_nodup (List.mem_of_find?_eq_some hg) hf htag]

theorem noters_of_lookup {k : MsgMember} {c : QsCallback} (hc : t.callbacks.lookup k = some c) :
    t.noters k = some c.noting := by
  unfold noters
  rw [hc]
  rfl

theorem lookup_isSome {f : PbField MsgMember} (hf : f ∈ t.fields) (htype : f.type ≠ .int32) :
    (t.callbacks.lookup f.member).isSome := by
  have hmem : f.member ∈ t.callbacks.map Prod.fst := by
    rw [t.callbacks_fields]
    exact List.mem_filterMap.mpr ⟨f, hf, callbackMember_of_ne htype⟩
  obtain ⟨c, hc, hk⟩ := List.mem_map.mp hmem
  exact List.lookup_isSome_iff.mpr ⟨c, hc, by simp [hk]⟩

/-- A message of known fields delivers them. -/
theorem delivered_messageBytes (hfs : ∀ f ∈ fs, f ∈ t.fields)
    (hnodup : (fs.map (·.member)).Nodup) (hlen : ∀ k, (payload k).length < 2 ^ 32) :
    t.delivered (messageBytes scalar payload fs) =
      receive t.noters scalar payload fs
        ⟨fun _ => 0, []⟩ := by
  refine pbDecodeNoinit_messageBytes (fun f hf => ?_) hnodup fun _ _ => rfl
  obtain ⟨hpos, hlt⟩ := t.tags_range f (hfs f hf)
  refine ⟨find_tag (hfs f hf), hpos, hlt, fun htype => ?_, hlen _⟩
  obtain ⟨c, hc⟩ := Option.isSome_iff_exists.mp (lookup_isSome (hfs f hf) htype)
  rw [noters_of_lookup hc]
  rfl

theorem fieldCarries_of_int32 {f : PbField MsgMember} (h : f.type = .int32) :
    t.fieldCarries payload f = [] := by
  rw [fieldCarries, h]

theorem fieldCarries_of_ne {f : PbField MsgMember} (h : f.type ≠ .int32) :
    t.fieldCarries payload f =
      ((t.callbacks.lookup f.member).map fun c => (c, payload f.member)).toList := by
  unfold fieldCarries
  split
  · exact absurd ‹_› h
  · rfl

/-- Fields that are noted: the message is accepted if all are, and then holds them all. -/
theorem receive_noting (hfs : ∀ f ∈ fs, f ∈ t.fields)
    (m : PbMessage MsgMember (List (QsCallback × List UInt8))) :
    (receive t.noters scalar payload fs m).1 =
        (t.carriedBy payload fs).all (fun d => d.1.accepts d.2) ∧
      ((t.carriedBy payload fs).all (fun d => d.1.accepts d.2) = true →
        (receive t.noters scalar payload fs m).2 =
          { scalar := scalarsOf scalar fs m.scalar
            env := m.env ++ t.carriedBy payload fs }) := by
  induction fs generalizing m with
  | nil => exact ⟨rfl, fun _ => by rw [carriedBy, List.flatMap_nil, List.append_nil]; rfl⟩
  | cons f fs ih =>
      have hfs' : ∀ g ∈ fs, g ∈ t.fields := fun g hg => hfs g (List.mem_cons_of_mem _ hg)
      rw [carriedBy, scalarsOf, List.flatMap_cons, List.foldl_cons]
      by_cases htype : f.type = .int32
      · rw [receive_static htype, fieldCarries_of_int32 htype, if_pos htype]
        exact ih hfs' _
      · obtain ⟨c, hc⟩ := Option.isSome_iff_exists.mp
          (lookup_isSome (hfs f (List.mem_cons_self ..)) htype)
        have hcarries : t.fieldCarries payload f = [(c, payload f.member)] := by
          rw [fieldCarries_of_ne htype, hc]
          rfl
        have ih := ih hfs' { m with env := m.env ++ [(c, payload f.member)] }
        rw [receive_callback htype (noters_of_lookup hc), hcarries, if_neg htype,
          List.singleton_append, List.all_cons]
        unfold QsCallback.noting
        dsimp only
        cases hacc : c.accepts (payload f.member) with
        | true =>
            rw [if_pos rfl, Bool.true_and]
            rw [List.append_assoc] at ih
            exact ih
        | false =>
            rw [if_neg Bool.false_ne_true, Bool.false_and]
            exact ⟨rfl, fun h => absurd h Bool.false_ne_true⟩

/-- A message of a single field. -/
theorem delivered_single {f : PbField MsgMember} {c : QsCallback} {field : List UInt8}
    (hf : f ∈ t.fields) (htype : f.type ≠ .int32) (hc : t.callbacks.lookup f.member = some c)
    (hlen : field.length < 2 ^ 32) (hacc : c.accepts field = true) :
    t.delivered (messageBytes (fun _ => 0) (fun _ => field) [f]) =
      (true, ⟨fun _ => 0, [(c, field)]⟩) := by
  have hfs : ∀ g ∈ [f], g ∈ t.fields := fun g hg => List.mem_singleton.mp hg ▸ hf
  rw [delivered_messageBytes hfs (List.nodup_singleton _) fun _ => hlen,
    receive_callback htype (noters_of_lookup hc)]
  unfold QsCallback.noting
  dsimp only
  rw [hacc, if_pos rfl]
  rfl

end known

end QsMessage

/-! ### Decoding in bounds -/

/-- For every message type and whatever bytes come in, decoding is safe if and only if no field that
`pb_decode` comes to carries more than its array has room for: varints for the strings, bytes for
the others. -/
theorem decode_in_bounds_iff (t : QsMessage) (_ : t ∈ qsMessages) (msg : List UInt8)
    (obj : Mem) : t.DecodeSafe msg obj ↔ t.FitsArrays msg :=
  t.decodeSafe_iff msg obj

/-- A `device_id` of 29 letters. -/
def longDevice : List UInt8 := 0x0A :: 29 :: List.replicate 29 0x41

theorem values_letters (n : ℕ) : Varint.values 64 (List.replicate n 0x41) =
    ((List.replicate n (0x41 : UInt8)).map UInt8.toNat, true) :=
  Varint.values_of_small (by decide) fun b hb => by
    rw [List.eq_of_mem_replicate hb]
    decide

/-- A `device_id` of `n` letters as a message. -/
theorem letters_eq {n : ℕ} (hn : n < 128) : 0x0A :: UInt8.ofNat n :: List.replicate n 0x41 =
    messageBytes (fun _ => 0) (fun _ => List.replicate n 0x41) [stringField 1 .deviceID] := by
  unfold messageBytes messageBytes PbField.bytes PbField.tagBytes stringField
  dsimp only
  rw [List.length_replicate, Varint.encode_of_lt hn, Varint.encode_of_lt (by decide),
    List.append_nil]
  rfl

theorem delivered_letters {n : ℕ} (hn : n < 128) :
    qsPbCliCommand.delivered (0x0A :: UInt8.ofNat n :: List.replicate n 0x41) =
      (true, ⟨fun _ => 0, [(.string .deviceId, List.replicate n 0x41)]⟩) := by
  rw [letters_eq hn]
  refine QsMessage.delivered_single (List.mem_cons_self ..) (by decide) rfl ?_ ?_
  · rw [List.length_replicate]
    omega
  · rw [QsCallback.accepts, values_letters]

theorem delivered_longDevice : qsPbCliCommand.delivered longDevice =
    (true, ⟨fun _ => 0, [(.string .deviceId, List.replicate 29 0x41)]⟩) :=
  delivered_letters (by decide)

/-- A long `device_id` is stored over the members behind it, here into `command`, and is not
refused. -/
theorem long_device_overruns : ¬ qsPbCliCommand.DecodeSafe longDevice (fun _ => 0) ∧
    (qsPbCliCommand.decode longDevice fun _ => 0).1 = .success ∧
      (qsPbCliCommand.decode longDevice fun _ => 0).2.mem (qsPbCliCommand.addr .command) =
        0x41 := by
  refine ⟨fun h => ?_, ?_, ?_⟩
  · have hfit := QsMessage.bounded_iff.mp h.bounded (.string .deviceId, List.replicate 29 0x41)
    rw [delivered_longDevice] at hfit
    have hle := hfit (List.mem_singleton_self _)
    rw [QsCallback.carried, values_letters, List.length_map, List.length_replicate] at hle
    exact absurd hle (by decide)
  · rw [QsMessage.decode_eq, delivered_longDevice]
    rfl
  · have hcommand : ∀ m : Mem, qsPbCliCommand.assignBack (fun _ => 0) m
        (qsPbCliCommand.addr .command) = m (qsPbCliCommand.addr .command) := fun m =>
      QsMessage.assignBack_array (t := qsPbCliCommand) (c := .string .command) (by decide)
        (Nat.le_refl _) (by decide)
    rw [QsMessage.decode_eq, delivered_longDevice]
    dsimp only
    rw [hcommand, List.foldl_cons, List.foldl_nil, QsMessage.place, QsCallback.values,
      values_letters, overlay_inside (by decide)]
    rfl

/-- A `device_id` of as many letters as its array has room for. -/
theorem full_device_safe :
    qsPbCliCommand.DecodeSafe (0x0A :: 24 :: List.replicate 24 0x41) fun _ => 0 :=
  (decode_in_bounds_iff qsPbCliCommand (by unfold qsMessages; simp) _ _).mpr fun d hd => by
    rw [show (24 : UInt8) = UInt8.ofNat 24 from rfl, delivered_letters (by decide)] at hd
    obtain rfl := List.mem_singleton.mp hd
    rw [QsCallback.carried, values_letters, List.length_map, List.length_replicate]
    decide

end ErgoDock
