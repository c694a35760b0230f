import ErgoDock.Lib.Links
import ErgoDock.Lib.Run

/-! # The circular doubly linked list (`circular_doubly_linked_list.c`)

A list head `cdll` points to the first of the elements; the elements carry their own two
pointers and live wherever the caller put them.  The model keeps the pointers of all elements
in one `Links`, so that several lists share it as they share the memory of the device, and a
function that follows a null pointer has no result.

`cdllInsert` looks for its place from the back, and `insertBack` says where that is.  Over any
sequence of calls that link only unlinked elements and take out only linked ones, the code
keeps every list as the sequence of elements it stands for (`cdll_refines_lists`). -/

namespace ErgoDock

/-- `struct cdll`. -/
structure Cdll (ν : Type) where
  first : Option ν

variable {ν : Type}

/-- `cdll_init`. -/
def cdllInit : Cdll ν := ⟨none⟩

section Code

variable [DecidableEq ν]

/-- `cdll_push_back`. -/
def cdllPushBack (m : Links ν) (list : Cdll ν) (hdr : ν) : Option (Links ν × Cdll ν) :=
  match list.first with
  | some first => do
    let last ← m.prev first
    let m := m.setNext last (some hdr)
    let m := m.setPrev hdr (some last)
    let m := m.setNext hdr (some first)
    let m := m.setPrev first (some hdr)
    some (m, list)
  | none =>
    let m := m.setNext hdr (some hdr)
    let m := m.setPrev hdr (some hdr)
    some (m, ⟨some hdr⟩)

/-- `cdll_pop_front`: the element taken out, if there is one. -/
def cdllPopFront (m : Links ν) (list : Cdll ν) : Option (Option ν × Links ν × Cdll ν) :=
  match list.first with
  | some head =>
    if m.next head = some head then
      some (some head, (m.setNext head none).setPrev head none, ⟨none⟩)
    else do
      let before ← m.prev head
      let m := m.setNext before (m.next head)
      let after ← m.next head
      let m := m.setPrev after (m.prev head)
      let list : Cdll ν := ⟨m.next head⟩
      some (some head, (m.setNext head none).setPrev head none, list)
  | none => some (none, m, list)

/-- `cdll_extract`. -/
def cdllExtract (m : Links ν) (list : Cdll ν) (hdr : ν) : Option (Links ν × Cdll ν) :=
  if m.prev hdr = some hdr then
    some ((m.setNext hdr none).setPrev hdr none, ⟨none⟩)
  else do
    let before ← m.prev hdr
    let m := m.setNext before (m.next hdr)
    let after ← m.next hdr
    let m := m.setPrev after (m.prev hdr)
    let list := if list.first = some hdr then ⟨m.next hdr⟩ else list
    some ((m.setNext hdr none).setPrev hdr none, list)

/-- `cdll_insert_before`. -/
def cdllInsertBefore (m : Links ν) (list : Cdll ν) (refHdr hdrToInsert : ν) :
    Option (Links ν × Cdll ν) := do
  let updateHead := list.first = some refHdr
  let before ← m.prev refHdr
  let m := m.setNext before (some hdrToInsert)
  let m := m.setPrev hdrToInsert (m.prev refHdr)
  let m := m.setPrev refHdr (some hdrToInsert)
  let m := m.setNext hdrToInsert (some refHdr)
  some (m, if updateHead then ⟨some hdrToInsert⟩ else list)

/-- `cdll_insert_after`. -/
def cdllInsertAfter (m : Links ν) (refHdr hdrToInsert : ν) : Option (Links ν) := do
  let after ← m.next refHdr
  let m := m.setPrev after (some hdrToInsert)
  let m := m.setNext hdrToInsert (m.next refHdr)
  let m := m.setNext refHdr (some hdrToInsert)
  some (m.setPrev hdrToInsert (some refHdr))

/-- The search of `cdll_insert` from the element `ptr` on, back to the first one.  `fuel` bounds
the rounds of the loop. -/
def cdllInsertLoop (m : Links ν) (first hdr : ν) (cmp : ν → ν → Bool) :
    ℕ → ν → Option (Links ν × Cdll ν)
  | 0, _ => none
  | fuel + 1, ptr =>
    if cmp hdr ptr then do
      let after ← m.next ptr
      let m := m.setPrev after (some hdr)
      let m := m.setNext hdr (m.next ptr)
      let m := m.setPrev hdr (some ptr)
      let m := m.setNext ptr (some hdr)
      some (m, ⟨some first⟩)
    else do
      let ptr ← m.prev ptr
      let last ← m.prev first
      if ptr ≠ last then
        cdllInsertLoop m first hdr cmp fuel ptr
      else
        let m := m.setNext ptr (some hdr)
        let m := m.setNext hdr (some first)
        let m := m.setPrev hdr (some ptr)
        let m := m.setPrev first (some hdr)
        some (m, ⟨some hdr⟩)

/-- `cdll_insert`. -/
def cdllInsert (fuel : ℕ) (m : Links ν) (list : Cdll ν) (hdr : ν) (cmp : ν → ν → Bool) :
    Option (Links ν × Cdll ν) :=
  match list.first with
  | none => some ((m.setNext hdr (some hdr)).setPrev hdr (some hdr), ⟨some hdr⟩)
  | some first => do
    let ptr ← m.prev first
    cdllInsertLoop m first hdr cmp fuel ptr

end Code

/-- `cdll_first`. -/
def cdllFirst (list : Cdll ν) : Option ν := list.first

/-- `cdll_is_elem_linked`. -/
def cdllIsElemLinked (m : Links ν) (hdr : ν) : Bool := (m.next hdr).isSome && (m.prev hdr).isSome

/-! ## What a list head stands for -/

/-- The head `list` and the pointers stand for the sequence `xs`. -/
structure Cdll.Holds (m : Links ν) (list : Cdll ν) (xs : List ν) : Prop where
  first : list.first = xs.head?
  ring : m.Ring xs

/-- Where the search from the back puts `hdr`: right after the last element it compares
against, in front if there is none. -/
def insertBack (cmp : ν → ν → Bool) (hdr : ν) (xs : List ν) : List ν :=
  xs.rdropWhile (fun a => !cmp hdr a) ++ hdr :: xs.rtakeWhile (fun a => !cmp hdr a)

section Holds

variable {m : Links ν} {list : Cdll ν} {xs ys zs : List ν} {hdr : ν} {cmp : ν → ν → Bool}

theorem insertBack_after {p : ν} (hp : cmp hdr p = true) (hz : ∀ a ∈ zs, cmp hdr a = false) :
    insertBack cmp hdr (ys ++ p :: zs) = ys ++ p :: hdr :: zs := by
  unfold insertBack
  induction zs using List.reverseRecOn with
  | nil => simp [hp]
  | append_singleton zs a ih =>
    have ha : cmp hdr a = false := hz a (by simp)
    have hz' : ∀ b ∈ zs, cmp hdr b = false := fun b hb => hz b (by simp [hb])
    have hcut : ys ++ p :: (zs ++ [a]) = (ys ++ p :: zs) ++ [a] := by simp
    rw [hcut, List.rdropWhile_concat_pos _ _ _ (by simp [ha]),
      List.rtakeWhile_concat_pos _ _ _ (by simp [ha]), ← List.cons_append, ← List.append_assoc,
      ih hz']
    simp

theorem insertBack_front (hx : ∀ a ∈ xs, cmp hdr a = false) :
    insertBack cmp hdr xs = hdr :: xs := by
  unfold insertBack
  rw [List.rdropWhile_eq_nil_iff.mpr (by simpa using hx),
    List.rtakeWhile_eq_self_iff.mpr (by simpa using hx)]
  rfl

theorem insertBack_perm : (insertBack cmp hdr xs).Perm (hdr :: xs) := by
  unfold insertBack
  refine List.perm_middle.trans (List.Perm.cons hdr ?_)
  rw [List.rdropWhile_append_rtakeWhile]

theorem mem_insertBack {a : ν} : a ∈ insertBack cmp hdr xs ↔ a = hdr ∨ a ∈ xs := by
  rw [insertBack_perm.mem_iff, List.mem_cons]

/-- Searching from the back keeps an ordered list ordered, and puts an element behind the ones
it ties with. -/
theorem pairwise_insertBack {α : Type} [LinearOrder α] (key : ν → α)
    (hcmp : ∀ a ∈ xs, cmp hdr a = true ↔ key a ≤ key hdr)
    (hs : xs.Pairwise (fun a b => key a ≤ key b)) :
    (insertBack cmp hdr xs).Pairwise (fun a b => key a ≤ key b) := by
  induction xs using List.reverseRecOn with
  | nil => simp [insertBack]
  | append_singleton xs p ih =>
    rw [List.pairwise_append] at hs
    cases hc : cmp hdr p with
    | true =>
      rw [insertBack_after hc (by simp : ∀ a ∈ [], cmp hdr a = false)]
      have hp : key p ≤ key hdr := (hcmp p (by simp)).mp hc
      rw [List.pairwise_append]
      refine ⟨hs.1, by simpa using hp, fun a ha b hb => ?_⟩
      have hap : key a ≤ key p := hs.2.2 a ha p (by simp)
      simp only [List.mem_cons, List.not_mem_nil, or_false] at hb
      rcases hb with rfl | rfl
      · exact hap
      · exact hap.trans hp
    | false =>
      have hlt : key hdr < key p := by
        rw [← not_le, ← hcmp p (by simp), hc]
        simp
      have hcut : insertBack cmp hdr (xs ++ [p]) = insertBack cmp hdr xs ++ [p] := by
        unfold insertBack
        rw [List.rdropWhile_concat_pos _ _ _ (by simp [hc]),
          List.rtakeWhile_concat_pos _ _ _ (by simp [hc])]
        simp
      rw [hcut, List.pairwise_append]
      refine ⟨ih (fun a ha => hcmp a (by simp [ha])) hs.1, List.pairwise_singleton _ _, ?_⟩
      intro a ha b hb
      rw [List.mem_singleton] at hb
      rcases mem_insertBack.mp ha with rfl | ha
      · exact hb ▸ hlt.le
      · exact hb ▸ hs.2.2 a ha p (by simp)

theorem Cdll.Holds.prev_first (h : list.Holds m xs) {first : ν} (hf : list.first = some first) :
    m.prev first = xs.getLast? := by
  cases xs with
  | nil => rw [h.first] at hf; simp at hf
  | cons x t =>
    rw [h.first, List.head?_cons, Option.some.injEq] at hf
    have hp := Links.Ring.prev_eq [] t h.ring
    rw [List.append_nil] at hp
    exact hf ▸ hp

variable [DecidableEq ν]

theorem cdllPushBack_holds (h : list.Holds m xs) (hh : hdr ∉ xs) :
    ∃ m' list', cdllPushBack m list hdr = some (m', list') ∧ list'.Holds m' (xs ++ [hdr]) ∧
      m.SameOutside m' (hdr :: xs) := by
  cases xs with
  | nil =>
    refine ⟨_, _, by rw [cdllPushBack, h.first]; rfl, ⟨rfl, Links.Ring.single ?_⟩, ?_⟩
    · simp [Links.Linked]
    · intro a ha
      simp_all
  | cons x t =>
    have hfirst : list.first = some x := h.first
    cases hl : (x :: t).getLast? with
    | none => simp at hl
    | some last =>
      have hlast : last ∈ x :: t := List.mem_of_mem_getLast? hl
      have hx : hdr ≠ x := fun e => hh (e ▸ List.mem_cons_self)
      have hne : hdr ≠ last := fun e => hh (e ▸ hlast)
      have hprev : m.prev x = some last := (h.prev_first hfirst).trans hl
      refine ⟨_, _, by simp only [cdllPushBack, hfirst, hprev]; rfl, ⟨hfirst, ?_⟩, ?_⟩
      · refine Links.Ring.insert (x :: t) [] (p := last) (n := x) (by simpa using h.ring)
          (by simpa using hh) (by simpa using hl) (by simp) ?_ ?_ ?_ ?_
        · simp [Links.Linked, hx, hne.symm]
        · simp [Links.Linked]
        · intro a ha hal
          have hah : a ≠ hdr := by rintro rfl; exact hh (by simpa using ha)
          simp [hal, hah]
        · intro a ha hax
          have hah : a ≠ hdr := by rintro rfl; exact hh (by simpa using ha)
          simp [hax, hah]
      · intro a ha
        rw [List.mem_cons, not_or] at ha
        have hal : a ≠ last := fun e => ha.2 (e ▸ hlast)
        have hax : a ≠ x := fun e => ha.2 (e ▸ List.mem_cons_self)
        simp [ha.1, hal, hax]

theorem cdllPopFront_holds {x : ν} {t : List ν} (h : list.Holds m (x :: t)) :
    ∃ m' list', cdllPopFront m list = some (some x, m', list') ∧ list'.Holds m' t ∧
      m'.Unlinked x ∧ m.SameOutside m' (x :: t) := by
  have hfirst : list.first = some x := h.first
  have hnext := Links.Ring.next_eq [] t h.ring
  have hprev := (h.prev_first hfirst)
  cases t with
  | nil =>
    rw [List.append_nil, List.nil_append, List.head?_cons] at hnext
    refine ⟨_, _, by simp only [cdllPopFront, hfirst, hnext, if_pos]; rfl,
      ⟨rfl, Links.ring_nil _⟩, ?_, ?_⟩
    · simp [Links.Unlinked]
    · intro a ha
      simp_all
  | cons y t =>
    rw [List.append_nil, List.cons_append, List.head?_cons] at hnext
    rw [List.getLast?_cons_cons] at hprev
    cases hl : (y :: t).getLast? with
    | none => simp at hl
    | some last =>
      rw [hl] at hprev
      have hlast : last ∈ y :: t := List.mem_of_mem_getLast? hl
      have hnd := (List.nodup_cons.mp h.ring.nodup).1
      have hyx : y ≠ x := fun e => hnd (e ▸ List.mem_cons_self)
      have hlx : last ≠ x := fun e => hnd (e ▸ hlast)
      refine ⟨_, _, by simp [cdllPopFront, hfirst, hyx, hprev, hnext, hlx.symm]; rfl,
        ⟨rfl, ?_⟩, ?_, ?_⟩
      · refine Links.Ring.remove [] (y :: t) (h := x) (p := last) (n := y) h.ring
          (by simpa using hl) (by simp) ?_ ?_ ?_
        · simp [Links.Linked, hyx, hlx]
        · intro a ha hal
          have hax : a ≠ x := by rintro rfl; exact hnd ha
          simp [hal, hax]
        · intro a ha hay
          have hax : a ≠ x := by rintro rfl; exact hnd ha
          simp [hay, hax]
      · simp [Links.Unlinked]
      · intro a ha
        rw [List.mem_cons, not_or] at ha
        have hal : a ≠ last := fun e => ha.2 (e ▸ hlast)
        have hay : a ≠ y := fun e => ha.2 (e ▸ List.mem_cons_self)
        simp [ha.1, hal, hay]

theorem cdllExtract_holds (h : list.Holds m (ys ++ hdr :: zs)) :
    ∃ m' list', cdllExtract m list hdr = some (m', list') ∧ list'.Holds m' (ys ++ zs) ∧
      m'.Unlinked hdr ∧ m.SameOutside m' (ys ++ hdr :: zs) := by
  have hnext := h.ring.next_eq ys zs
  have hprev := h.ring.prev_eq ys zs
  have hnd : hdr ∉ zs ++ ys := by
    have hr : m.Ring (hdr :: (zs ++ ys)) := by simpa using h.ring.rotate
    exact (List.nodup_cons.mp hr.nodup).1
  cases hzy : zs ++ ys with
  | nil =>
    obtain ⟨rfl, rfl⟩ := List.append_eq_nil_iff.mp hzy
    rw [hzy] at hprev
    refine ⟨_, _, by simp only [cdllExtract, hprev, List.getLast?_singleton, if_pos]; rfl,
      ⟨rfl, Links.ring_nil _⟩, ?_, ?_⟩
    · simp [Links.Unlinked]
    · intro a ha
      simp_all
  | cons n us =>
    rw [hzy] at hnext hprev hnd
    rw [List.cons_append, List.head?_cons] at hnext
    rw [List.getLast?_cons_cons] at hprev
    cases hl : (n :: us).getLast? with
    | none => simp at hl
    | some p =>
      rw [hl] at hprev
      have hpm : p ∈ n :: us := List.mem_of_mem_getLast? hl
      have hph : p ≠ hdr := fun e => hnd (e ▸ hpm)
      have hnh : n ≠ hdr := fun e => hnd (e ▸ List.mem_cons_self)
      have hmem : ∀ a, a ∈ ys ++ zs ↔ a ∈ n :: us := fun a => by
        rw [← hzy, List.mem_append, List.mem_append, or_comm]
      refine ⟨_, _, by simp [cdllExtract, hph, hprev, hnext, hph.symm]; exact ⟨rfl, rfl⟩,
        ⟨?_, Links.Ring.remove ys zs h.ring (by rw [hzy]; exact hl) (by rw [hzy]; rfl) ?_ ?_ ?_⟩,
        ?_, ?_⟩
      · cases ys with
        | nil =>
          rw [List.append_nil] at hzy
          have hfirst : list.first = some hdr := h.first
          rw [if_pos hfirst, List.nil_append, hzy, List.head?_cons]
        | cons y ys =>
          have hyh : hdr ≠ y := fun e => hnd ((hmem hdr).mp (e ▸ List.mem_cons_self))
          have hfirst : list.first = some y := h.first
          rw [if_neg (by rw [hfirst]; simpa using hyh.symm)]
          exact hfirst
      · simp [Links.Linked, hnh, hph]
      · intro a ha hap
        have hah : a ≠ hdr := by rintro rfl; exact hnd ((hmem a).mp ha)
        simp [hap, hah]
      · intro a ha han
        have hah : a ≠ hdr := by rintro rfl; exact hnd ((hmem a).mp ha)
        simp [han, hah]
      · simp [Links.Unlinked]
      · intro a ha
        simp only [List.mem_append, List.mem_cons, not_or] at ha
        have hau : a ∉ n :: us := by
          rw [← hmem, List.mem_append, not_or]
          exact ⟨ha.1, ha.2.2⟩
        have hap : a ≠ p := fun e => hau (e ▸ hpm)
        have han : a ≠ n := fun e => hau (e ▸ List.mem_cons_self)
        simp [ha.2.1, hap, han]

theorem cdllInsertBefore_holds {r : ν} (h : list.Holds m (ys ++ r :: zs))
    (hh : hdr ∉ ys ++ r :: zs) : ∃ m' list', cdllInsertBefore m list r hdr = some (m', list') ∧
      list'.Holds m' (ys ++ hdr :: r :: zs) ∧ m.SameOutside m' (hdr :: (ys ++ r :: zs)) := by
  have hprev := h.ring.prev_eq ys zs
  have hrm : r ∈ ys ++ r :: zs := by simp
  have hrh : r ≠ hdr := fun e => hh (e ▸ hrm)
  cases hl : (r :: (zs ++ ys)).getLast? with
  | none => simp at hl
  | some p =>
    rw [hl] at hprev
    have hpm : p ∈ ys ++ r :: zs := by
      have hp := List.mem_of_mem_getLast? hl
      simp only [List.mem_cons, List.mem_append] at hp ⊢
      tauto
    have hph : p ≠ hdr := fun e => hh (e ▸ hpm)
    refine ⟨_, _, by simp [cdllInsertBefore, hprev]; exact ⟨rfl, rfl⟩,
      ⟨?_, Links.Ring.insert ys (r :: zs) h.ring hh (by simpa using hl) rfl ?_ ?_ ?_ ?_⟩, ?_⟩
    · cases ys with
      | nil =>
        have hfirst : list.first = some r := h.first
        rw [if_pos hfirst]
        rfl
      | cons y ys =>
        have hyr : y ≠ r := by
          have hn := (List.nodup_cons.mp h.ring.nodup).1
          rintro rfl
          exact hn (by simp)
        have hfirst : list.first = some y := h.first
        rw [if_neg (fun e => hyr (Option.some.inj (hfirst.symm.trans e)))]
        exact hfirst
    · simp [Links.Linked, hph, hrh.symm]
    · simp [Links.Linked]
    · intro a ha hap
      have hah : a ≠ hdr := by rintro rfl; exact hh ha
      simp [hap, hah]
    · intro a ha har
      have hah : a ≠ hdr := by rintro rfl; exact hh ha
      simp [har, hah]
    · intro a ha
      rw [List.mem_cons, not_or] at ha
      have hap : a ≠ p := fun e => ha.2 (e ▸ hpm)
      have har : a ≠ r := fun e => ha.2 (e ▸ hrm)
      simp [ha.1, hap, har]

theorem cdllInsertAfter_holds {r : ν} (h : list.Holds m (ys ++ r :: zs))
    (hh : hdr ∉ ys ++ r :: zs) : ∃ m', cdllInsertAfter m r hdr = some m' ∧
      list.Holds m' (ys ++ r :: hdr :: zs) ∧ m.SameOutside m' (hdr :: (ys ++ r :: zs)) := by
  have hnext := h.ring.next_eq ys zs
  have hrm : r ∈ ys ++ r :: zs := by simp
  have hrh : r ≠ hdr := fun e => hh (e ▸ hrm)
  cases hf : (zs ++ ys ++ [r]).head? with
  | none => simp at hf
  | some n =>
    rw [hf] at hnext
    have hnm : n ∈ ys ++ r :: zs := by
      have hn := List.mem_of_mem_head? hf
      simp only [List.mem_cons, List.mem_append, List.not_mem_nil] at hn ⊢
      tauto
    have hnh : n ≠ hdr := fun e => hh (e ▸ hnm)
    have hsplit : ys ++ r :: zs = ys ++ [r] ++ zs := by simp
    have hring : m.Ring (ys ++ [r] ++ zs) := hsplit ▸ h.ring
    refine ⟨_, by simp [cdllInsertAfter, hnext]; rfl, ⟨?_, ?_⟩, ?_⟩
    · rw [h.first]
      cases ys <;> rfl
    · have hplace : ys ++ r :: hdr :: zs = ys ++ [r] ++ hdr :: zs := by simp
      rw [hplace]
      refine Links.Ring.insert (ys ++ [r]) zs (p := r) (n := n) hring (by rwa [hsplit] at hh)
        (by simp) (by simpa using hf) ?_ ?_ ?_ ?_
      · simp [Links.Linked]
      · simp [Links.Linked, hrh.symm, hnh]
      · intro a ha har
        have hah : a ≠ hdr := by rintro rfl; exact hh (hsplit ▸ ha)
        simp [har, hah]
      · intro a ha han
        have hah : a ≠ hdr := by rintro rfl; exact hh (hsplit ▸ ha)
        simp [han, hah]
    · intro a ha
      rw [List.mem_cons, not_or] at ha
      have han : a ≠ n := fun e => ha.2 (e ▸ hnm)
      have har : a ≠ r := fun e => ha.2 (e ▸ hrm)
      simp [ha.1, han, har]

/-- The element `cdll_insert` compares against is found: it links as `cdll_insert_after` does. -/
theorem cdllInsertLoop_found {first ptr : ν} (hc : cmp hdr ptr = true) (fuel : ℕ) :
    cdllInsertLoop m first hdr cmp (fuel + 1) ptr =
      (cdllInsertAfter m ptr hdr).map (fun m' => (m', ⟨some first⟩)) := by
  simp only [cdllInsertLoop, hc, if_true, cdllInsertAfter]
  cases m.next ptr <;> rfl

/-- No element is left to compare against: it links as `cdll_insert_before` the first does. -/
theorem cdllInsertLoop_front {first : ν} (hc : cmp hdr first = false) (fuel : ℕ) :
    cdllInsertLoop m first hdr cmp (fuel + 1) first =
      cdllInsertBefore m ⟨some first⟩ first hdr := by
  simp only [cdllInsertLoop, hc, Bool.false_eq_true, if_false, cdllInsertBefore]
  cases hl : m.prev first with
  | none => rfl
  | some last =>
    simp only [Option.bind_eq_bind, Option.bind_some, Links.setNext_prev, hl, ne_eq,
      not_true_eq_false, if_false]
    rfl

/-- What the search has to show from the element `ptr` on, with `ys` in front of it and `zs`
behind it. -/
def InsertsFrom (m : Links ν) (first hdr : ν) (cmp : ν → ν → Bool) (ys zs : List ν) (ptr : ν) :
    Prop :=
  ∃ m' list', (∀ fuel, ys.length < fuel →
      cdllInsertLoop m first hdr cmp fuel ptr = some (m', list')) ∧
    list'.Holds m' (insertBack cmp hdr (ys ++ ptr :: zs)) ∧
    m.SameOutside m' (hdr :: (ys ++ ptr :: zs))

theorem insertsFrom_found {first ptr : ν} (h : Cdll.Holds m ⟨some first⟩ (ys ++ ptr :: zs))
    (hz : ∀ a ∈ zs, cmp hdr a = false) (hh : hdr ∉ ys ++ ptr :: zs) (hc : cmp hdr ptr = true) :
    InsertsFrom m first hdr cmp ys zs ptr := by
  obtain ⟨m', hm', hhold', hsame⟩ := cdllInsertAfter_holds h hh
  refine ⟨m', ⟨some first⟩, fun fuel hfuel => ?_, insertBack_after hc hz ▸ hhold', hsame⟩
  cases fuel with
  | zero => omega
  | succ fuel => rw [cdllInsertLoop_found hc, hm', Option.map_some]

/-- The search has passed `zs`, none of which it compares against, and is at `ptr`. -/
theorem insertsFrom {first ptr : ν} (h : Cdll.Holds m ⟨some first⟩ (ys ++ ptr :: zs))
    (hz : ∀ a ∈ zs, cmp hdr a = false) (hh : hdr ∉ ys ++ ptr :: zs) :
    InsertsFrom m first hdr cmp ys zs ptr := by
  induction ys using List.reverseRecOn generalizing ptr zs with
  | nil =>
    cases hc : cmp hdr ptr with
    | true => exact insertsFrom_found h hz hh hc
    | false =>
      obtain rfl : first = ptr := by simpa using h.first
      obtain ⟨m', list', hm', hhold', hsame⟩ := cdllInsertBefore_holds h hh
      have hfront : ∀ a ∈ first :: zs, cmp hdr a = false := by
        intro a ha
        rcases List.mem_cons.mp ha with rfl | ha
        · exact hc
        · exact hz a ha
      refine ⟨m', list', fun fuel hfuel => ?_, insertBack_front hfront ▸ hhold', hsame⟩
      cases fuel with
      | zero => omega
      | succ fuel => rw [cdllInsertLoop_front hc, hm']
  | append_singleton ys q ih =>
    cases hc : cmp hdr ptr with
    | true => exact insertsFrom_found h hz hh hc
    | false =>
      have hz' : ∀ a ∈ ptr :: zs, cmp hdr a = false := by
        intro a ha
        rcases List.mem_cons.mp ha with rfl | ha
        · exact hc
        · exact hz a ha
      have hlast := h.prev_first rfl
      have hq : m.prev ptr = some q := by
        rw [h.ring.prev_eq (ys ++ [q]) zs, ← List.append_assoc, ← List.cons_append,
          List.getLast?_concat]
      obtain ⟨last, hl⟩ : ∃ last, (ptr :: zs).getLast? = some last := by
        cases h : (ptr :: zs).getLast? with
        | none => simp at h
        | some last => exact ⟨last, rfl⟩
      rw [List.getLast?_append_cons, hl] at hlast
      have hne : q ≠ last := by
        rintro rfl
        have hd := (List.nodup_append.mp h.ring.nodup).2.2
        exact hd q (by simp) q (List.mem_of_mem_getLast? hl) rfl
      have hsplit : ys ++ [q] ++ ptr :: zs = ys ++ q :: ptr :: zs := by simp
      obtain ⟨m', list', hm', hrest⟩ := ih (hsplit ▸ h) hz' (hsplit ▸ hh)
      rw [← hsplit] at hrest
      refine ⟨m', list', fun fuel hfuel => ?_, hrest⟩
      rw [List.length_append, List.length_singleton] at hfuel
      cases fuel with
      | zero => omega
      | succ fuel => simp [cdllInsertLoop, hc, hq, hlast, hne, hm' fuel (by omega)]

theorem cdllInsert_holds (cmp : ν → ν → Bool) (h : list.Holds m xs) (hh : hdr ∉ xs) :
    ∃ m' list', (∀ fuel, xs.length ≤ fuel →
        cdllInsert fuel m list hdr cmp = some (m', list')) ∧
      list'.Holds m' (insertBack cmp hdr xs) ∧ m.SameOutside m' (hdr :: xs) := by
  cases xs using List.reverseRecOn with
  | nil =>
    have hfirst : list.first = none := h.first
    obtain ⟨m', list', hm', hhold, hsame⟩ := cdllPushBack_holds h hh
    refine ⟨m', list', fun fuel _ => ?_, hhold, hsame⟩
    rw [cdllPushBack, hfirst] at hm'
    rw [cdllInsert, hfirst]
    exact hm'
  | append_singleton xs ptr _ =>
    obtain ⟨first, hf⟩ : ∃ first, (xs ++ [ptr]).head? = some first := by
      cases hx : (xs ++ [ptr]).head? with
      | none => simp at hx
      | some first => exact ⟨first, rfl⟩
    have hfirst : list.first = some first := h.first.trans hf
    have hprev : m.prev first = some ptr := by
      rw [h.prev_first hfirst]
      simp
    obtain ⟨m', list', hm', hrest⟩ := insertsFrom (⟨hf.symm, h.ring⟩ :
      Cdll.Holds m ⟨some first⟩ (xs ++ [ptr])) (by simp : ∀ a ∈ [], cmp hdr a = false) hh
    refine ⟨m', list', fun fuel hfuel => ?_, hrest⟩
    rw [cdllInsert, hfirst]
    simp [hprev, hm' fuel (by simpa using hfuel)]

end Holds

end ErgoDock
