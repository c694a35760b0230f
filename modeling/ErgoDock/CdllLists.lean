import ErgoDock.Cdll

/-! # Several lists in one memory (`circular_doubly_linked_list.c`)

The abstract side is a family of sequences, one for each list head, and what each call does to
them.  A call is `Legal` when it links an element that no list has and takes out, or names as
the place to insert at, an element of the list it is given: what every caller owes a list whose
elements carry their own pointers.

Over any sequence of legal calls, on any number of lists, the code never follows a null
pointer, hands out the elements the sequences hand out, and leaves the heads and pointers of
exactly those sequences (`cdll_refines_lists`). -/

namespace ErgoDock

variable {ι ν : Type} [DecidableEq ι] [DecidableEq ν]

/-- A call of the interface, on the list `i`. -/
inductive CdllCall (ι ν : Type) where
  | pushBack (i : ι) (hdr : ν)
  | popFront (i : ι)
  | extract (i : ι) (hdr : ν)
  | insertBefore (i : ι) (refHdr hdrToInsert : ν)
  | insertAfter (i : ι) (refHdr hdrToInsert : ν)
  | insert (i : ι) (hdr : ν) (cmp : ν → ν → Bool)

/-- The pointers of all elements and the heads of the lists. -/
structure CdllHeap (ι ν : Type) where
  links : Links ν
  list : ι → Cdll ν

/-- Memory before any call: no element is linked, every list is as `cdllInit` leaves it. -/
def CdllHeap.init : CdllHeap ι ν where
  links := ⟨fun _ => none, fun _ => none⟩
  list := fun _ => cdllInit

namespace CdllHeap

/-- The heap after the function called has changed the pointers and the head of list `i`. -/
def put (heap : CdllHeap ι ν) (i : ι) (r : Links ν × Cdll ν) : CdllHeap ι ν where
  links := r.1
  list := Function.update heap.list i r.2

/-- One call and the elements it hands out. -/
def step (fuel : ℕ) (heap : CdllHeap ι ν) : CdllCall ι ν → Option (List ν × CdllHeap ι ν)
  | .pushBack i hdr => do
    let r ← cdllPushBack heap.links (heap.list i) hdr
    some ([], heap.put i r)
  | .popFront i => do
    let r ← cdllPopFront heap.links (heap.list i)
    some (r.1.toList, heap.put i r.2)
  | .extract i hdr => do
    let r ← cdllExtract heap.links (heap.list i) hdr
    some ([], heap.put i r)
  | .insertBefore i refHdr hdrToInsert => do
    let r ← cdllInsertBefore heap.links (heap.list i) refHdr hdrToInsert
    some ([], heap.put i r)
  | .insertAfter i refHdr hdrToInsert => do
    let m ← cdllInsertAfter heap.links refHdr hdrToInsert
    some ([], heap.put i (m, heap.list i))
  | .insert i hdr cmp => do
    let r ← cdllInsert fuel heap.links (heap.list i) hdr cmp
    some ([], heap.put i r)

/-- A sequence of calls and all the elements they hand out. -/
def run (fuel : ℕ) (heap : CdllHeap ι ν) : List (CdllCall ι ν) → Option (List ν × CdllHeap ι ν)
  | [] => some ([], heap)
  | c :: cs => do
    let (out, heap) ← heap.step fuel c
    let (outs, heap) ← heap.run fuel cs
    some (out ++ outs, heap)

end CdllHeap

/-! ## The sequences -/

/-- What a call does to the sequences. -/
def CdllCall.onLists (xs : ι → List ν) : CdllCall ι ν → ι → List ν
  | .pushBack i hdr => Function.update xs i (xs i ++ [hdr])
  | .popFront i => Function.update xs i (xs i).tail
  | .extract i hdr => Function.update xs i ((xs i).erase hdr)
  | .insertBefore i refHdr hdrToInsert =>
    Function.update xs i ((xs i).insertIdx ((xs i).idxOf refHdr) hdrToInsert)
  | .insertAfter i refHdr hdrToInsert =>
    Function.update xs i ((xs i).insertIdx ((xs i).idxOf refHdr + 1) hdrToInsert)
  | .insert i hdr cmp => Function.update xs i (insertBack cmp hdr (xs i))

/-- The element a call hands out. -/
def CdllCall.handsOut (xs : ι → List ν) : CdllCall ι ν → List ν
  | .popFront i => (xs i).head?.toList
  | _ => []

/-- What a caller owes. -/
def CdllCall.Legal (xs : ι → List ν) : CdllCall ι ν → Prop
  | .pushBack _ hdr | .insert _ hdr _ => ∀ j, hdr ∉ xs j
  | .popFront _ => True
  | .extract i hdr => hdr ∈ xs i
  | .insertBefore i refHdr hdrToInsert | .insertAfter i refHdr hdrToInsert =>
    refHdr ∈ xs i ∧ ∀ j, hdrToInsert ∉ xs j

omit [DecidableEq ι] [DecidableEq ν] in
theorem insertIdx_append_add (ys zs : List ν) (k : ℕ) (a : ν) :
    (ys ++ zs).insertIdx (ys.length + k) a = ys ++ zs.insertIdx k a := by
  induction ys with
  | nil => simp
  | cons y ys ih =>
    rw [List.length_cons, Nat.succ_add, List.cons_append, List.insertIdx_succ_cons, ih]
    rfl

omit [DecidableEq ι] in
theorem idxOf_split {ys zs : List ν} {r : ν} (hn : (ys ++ r :: zs).Nodup) :
    (ys ++ r :: zs).idxOf r = ys.length := by
  have hr : r ∉ ys := fun h => (List.nodup_append.mp hn).2.2 r h r List.mem_cons_self rfl
  rw [List.idxOf_append_of_notMem hr, List.idxOf_cons_self, Nat.add_zero]

/-! ## The heap stands for the sequences -/

/-- Each head holds its sequence, no element is in two of them, and an element that is in none
has no pointer set. -/
structure CdllHeap.Stands (heap : CdllHeap ι ν) (xs : ι → List ν) : Prop where
  holds : ∀ i, (heap.list i).Holds heap.links (xs i)
  apart : ∀ i j, i ≠ j → (xs i).Disjoint (xs j)
  unlinked : ∀ a, (∀ i, a ∉ xs i) → heap.links.Unlinked a

variable {heap : CdllHeap ι ν} {xs : ι → List ν}

/-- A change of list `i` that touches its elements and elements of no list. -/
theorem CdllHeap.Stands.put (hs : heap.Stands xs) {i : ι} {m : Links ν} {list : Cdll ν}
    {us touched : List ν} (hhold : list.Holds m us) (hsame : heap.links.SameOutside m touched)
    (hfree : ∀ j ≠ i, touched.Disjoint (xs j)) (hold : xs i ⊆ touched) (hnew : us ⊆ touched)
    (hout : ∀ a ∈ touched, a ∉ us → m.Unlinked a) :
    (heap.put i (m, list)).Stands (Function.update xs i us) where
  holds := by
    intro j
    by_cases hj : j = i
    · subst hj
      simpa [CdllHeap.put] using hhold
    · have h := hs.holds j
      simp only [CdllHeap.put, Function.update_of_ne hj]
      exact ⟨h.first, hsame.ring (hfree j hj) h.ring⟩
  apart := by
    intro j k hjk
    by_cases hj : j = i
    · subst hj
      rw [Function.update_self, Function.update_of_ne hjk.symm]
      exact List.disjoint_of_subset_left hnew (hfree k hjk.symm)
    · rw [Function.update_of_ne hj]
      by_cases hk : k = i
      · subst hk
        rw [Function.update_self]
        exact (List.disjoint_of_subset_left hnew (hfree j hj)).symm
      · rw [Function.update_of_ne hk]
        exact hs.apart j k hjk
  unlinked := by
    intro a ha
    have hus : a ∉ us := by simpa using ha i
    by_cases hat : a ∈ touched
    · exact hout a hat hus
    · have hun : heap.links.Unlinked a := by
        refine hs.unlinked a (fun j => ?_)
        by_cases hj : j = i
        · subst hj
          exact fun h => hat (hold h)
        · simpa [Function.update_of_ne hj] using ha j
      obtain ⟨h1, h2⟩ := hsame a hat
      exact ⟨h1.trans hun.1, h2.trans hun.2⟩

/-- `hdr` goes into list `i`, whose sequence becomes `us`. -/
theorem CdllHeap.Stands.link (hs : heap.Stands xs) {i : ι} {hdr : ν} (hh : ∀ j, hdr ∉ xs j)
    {m : Links ν} {list : Cdll ν} {us : List ν} (hhold : list.Holds m us)
    (hsame : heap.links.SameOutside m (hdr :: xs i)) (hus : ∀ a, a ∈ us ↔ a = hdr ∨ a ∈ xs i) :
    (heap.put i (m, list)).Stands (Function.update xs i us) := by
  refine hs.put hhold hsame (fun j hj => ?_) (List.subset_cons_self _ _) (fun a ha => ?_)
    (fun a ha hau => ?_)
  · rw [List.disjoint_cons_left]
    exact ⟨hh j, hs.apart i j hj.symm⟩
  · rw [List.mem_cons]
    exact (hus a).mp ha
  · exact absurd ((hus a).mpr (List.mem_cons.mp ha)) hau

/-- `hdr` goes out of list `i`, whose sequence becomes `us`. -/
theorem CdllHeap.Stands.unlink (hs : heap.Stands xs) {i : ι} {hdr : ν} {m : Links ν}
    {list : Cdll ν} {us : List ν} (hhold : list.Holds m us) (hun : m.Unlinked hdr)
    (hsame : heap.links.SameOutside m (xs i)) (hus : ∀ a, a ∈ xs i ↔ a = hdr ∨ a ∈ us) :
    (heap.put i (m, list)).Stands (Function.update xs i us) := by
  refine hs.put hhold hsame (fun j hj => hs.apart i j hj.symm) (List.Subset.refl _)
    (fun a ha => (hus a).mpr (Or.inr ha)) (fun a ha hau => ?_)
  rcases (hus a).mp ha with rfl | h
  · exact hun
  · exact absurd h hau

theorem cdllHeap_step (hs : heap.Stands xs) {c : CdllCall ι ν} (hc : c.Legal xs) (fuel : ℕ)
    (hfuel : ∀ i, (xs i).length ≤ fuel) :
    ∃ heap', heap.step fuel c = some (c.handsOut xs, heap') ∧ heap'.Stands (c.onLists xs) := by
  cases c with
  | pushBack i hdr =>
    obtain ⟨m, list, hcall, hhold, hsame⟩ := cdllPushBack_holds (hs.holds i) (hc i)
    exact ⟨_, by simp only [CdllHeap.step, hcall]; rfl, hs.link hc hhold hsame (by simp [or_comm])⟩
  | popFront i =>
    cases hx : xs i with
    | nil =>
      have hfirst : (heap.list i).first = none := by
        rw [(hs.holds i).first, hx]
        rfl
      refine ⟨heap.put i (heap.links, heap.list i), ?_, ?_⟩
      · simp [CdllHeap.step, cdllPopFront, hfirst, CdllCall.handsOut, hx]
      · have hold := hs.put (hs.holds i) (fun _ _ => ⟨rfl, rfl⟩)
          (fun j hj => hs.apart i j hj.symm) (List.Subset.refl _) (List.Subset.refl _)
          (fun a ha hn => absurd ha hn)
        simpa [CdllCall.onLists, hx] using hold
    | cons x t =>
      obtain ⟨m, list, hcall, hhold, hun, hsame⟩ := cdllPopFront_holds (hx ▸ hs.holds i)
      refine ⟨_, by simp only [CdllHeap.step, hcall, CdllCall.handsOut, hx]; rfl, ?_⟩
      refine hs.unlink ?_ hun (hx ▸ hsame) ?_
      · rw [hx]
        exact hhold
      · simp [hx]
  | extract i hdr =>
    obtain ⟨ys, zs, hx⟩ := List.append_of_mem (show hdr ∈ xs i from hc)
    obtain ⟨m, list, hcall, hhold, hun, hsame⟩ := cdllExtract_holds (hx ▸ hs.holds i)
    refine ⟨_, by simp only [CdllHeap.step, hcall]; rfl, hs.unlink ?_ hun (hx ▸ hsame) ?_⟩
    · have hn : hdr ∉ ys := fun h =>
        (List.nodup_append.mp (hx ▸ (hs.holds i).ring.nodup)).2.2 hdr h hdr
          List.mem_cons_self rfl
      rwa [hx, List.erase_append_right _ hn, List.erase_cons_head]
    · intro a
      rw [(List.perm_cons_erase (show hdr ∈ xs i from hc)).mem_iff, List.mem_cons]
  | insertBefore i refHdr hdrToInsert =>
    obtain ⟨hr, hh⟩ := hc
    obtain ⟨ys, zs, hx⟩ := List.append_of_mem hr
    obtain ⟨m, list, hcall, hhold, hsame⟩ :=
      cdllInsertBefore_holds (hx ▸ hs.holds i) (hx ▸ hh i)
    refine ⟨_, by simp only [CdllHeap.step, hcall]; rfl, hs.link hh ?_ (hx ▸ hsame) ?_⟩
    · rw [hx, idxOf_split (hx ▸ (hs.holds i).ring.nodup)]
      have hins := insertIdx_append_add ys (refHdr :: zs) 0 hdrToInsert
      rw [Nat.add_zero, List.insertIdx_zero] at hins
      rwa [hins]
    · intro a
      rw [List.mem_insertIdx (List.idxOf_lt_length_of_mem hr).le]
  | insertAfter i refHdr hdrToInsert =>
    obtain ⟨hr, hh⟩ := hc
    obtain ⟨ys, zs, hx⟩ := List.append_of_mem hr
    obtain ⟨m, hcall, hhold, hsame⟩ := cdllInsertAfter_holds (hx ▸ hs.holds i) (hx ▸ hh i)
    refine ⟨_, by simp only [CdllHeap.step, hcall]; rfl, hs.link hh ?_ (hx ▸ hsame) ?_⟩
    · rw [hx, idxOf_split (hx ▸ (hs.holds i).ring.nodup), insertIdx_append_add,
        List.insertIdx_succ_cons, List.insertIdx_zero]
      exact hhold
    · intro a
      rw [List.mem_insertIdx (Nat.succ_le_of_lt (List.idxOf_lt_length_of_mem hr))]
  | insert i hdr cmp =>
    obtain ⟨m, list, hcall, hhold, hsame⟩ :=
      cdllInsert_holds cmp (hs.holds i) (hc i)
    exact ⟨_, by simp only [CdllHeap.step, hcall fuel (hfuel i)]; rfl,
      hs.link hc hhold hsame (fun a => mem_insertBack)⟩

theorem length_onLists_le (xs : ι → List ν) (c : CdllCall ι ν) (i : ι) :
    (c.onLists xs i).length ≤ (xs i).length + 1 := by
  have hins (us : List ν) (k : ℕ) (a : ν) : (us.insertIdx k a).length ≤ us.length + 1 := by
    rw [List.length_insertIdx]
    split <;> omega
  have hback (us : List ν) (a : ν) (cmp : ν → ν → Bool) :
      (insertBack cmp a us).length ≤ us.length + 1 := insertBack_perm.length_eq.le
  cases c with
  | pushBack j hdr =>
    by_cases h : i = j
    · subst h; simp [CdllCall.onLists]
    · simp [CdllCall.onLists, h]
  | popFront j =>
    by_cases h : i = j
    · subst h; simp [CdllCall.onLists]; omega
    · simp [CdllCall.onLists, h]
  | extract j hdr =>
    by_cases h : i = j
    · subst h
      have := List.length_erase_le (a := hdr) (l := xs i)
      simp [CdllCall.onLists]
      omega
    · simp [CdllCall.onLists, h]
  | insertBefore j r hdr | insertAfter j r hdr | insert j hdr cmp =>
    by_cases h : i = j
    · subst h; simp [CdllCall.onLists, hins, hback]
    · simp [CdllCall.onLists, h]

/-- A sequence of legal calls from any heap that stands for sequences. -/
theorem cdllHeap_run (hs : heap.Stands xs) {fuel : ℕ} {calls : List (CdllCall ι ν)}
    (ha : Machine.Along CdllCall.onLists CdllCall.Legal xs calls)
    (hfuel : ∀ i, (xs i).length + calls.length ≤ fuel) :
    ∃ heap', heap.run fuel calls =
        some (Machine.outputs CdllCall.onLists CdllCall.handsOut xs calls, heap') ∧
      heap'.Stands (Machine.exec CdllCall.onLists xs calls) := by
  induction calls generalizing heap xs with
  | nil => exact ⟨heap, rfl, hs⟩
  | cons c cs ih =>
    rw [Machine.along_cons] at ha
    obtain ⟨heap₁, hstep, hs₁⟩ := cdllHeap_step hs ha.1 fuel (fun i => by
      have h := hfuel i
      omega)
    obtain ⟨heap', hrun, hs'⟩ := ih hs₁ ha.2 (fun i => by
      have h := hfuel i
      have hgrow := length_onLists_le xs c i
      rw [List.length_cons] at h
      omega)
    refine ⟨heap', ?_, hs'⟩
    simp [CdllHeap.run, hstep, hrun]

omit [DecidableEq ι] [DecidableEq ν] in
theorem stands_init : (CdllHeap.init : CdllHeap ι ν).Stands (fun _ => []) where
  holds := fun _ => ⟨rfl, Links.ring_nil _⟩
  apart := fun _ _ _ => List.disjoint_nil_left _
  unlinked := fun _ _ => ⟨rfl, rfl⟩

omit [DecidableEq ι] [DecidableEq ν] in
theorem CdllHeap.Stands.linked_iff (hs : heap.Stands xs) (a : ν) :
    cdllIsElemLinked heap.links a = true ↔ ∃ i, a ∈ xs i := by
  constructor
  · intro h
    by_contra hn
    have hun := hs.unlinked a (fun i hi => hn ⟨i, hi⟩)
    simp [cdllIsElemLinked, hun.1] at h
  · rintro ⟨i, hi⟩
    obtain ⟨p, -, n, -, hn, hp⟩ := (hs.holds i).ring.linked_of_mem hi
    simp [cdllIsElemLinked, hn, hp]

omit [DecidableEq ι] in
/-- Taking out an element that no list has follows a null pointer. -/
theorem CdllHeap.Stands.extract_fails_iff (hs : heap.Stands xs) (i : ι) (a : ν) :
    cdllExtract heap.links (heap.list i) a = none ↔ ∀ j, a ∉ xs j := by
  constructor
  · intro h j hj
    obtain ⟨p, -, n, -, hn, hp⟩ := (hs.holds j).ring.linked_of_mem hj
    by_cases hpa : p = a
    · simp [cdllExtract, hp, hpa] at h
    · simp [cdllExtract, hp, hn, hpa, Ne.symm hpa] at h
  · intro h
    have hun := hs.unlinked a h
    simp [cdllExtract, hun.2]

/-- Any number of lists in one memory, over any sequence of legal calls: no null pointer is
followed, what is handed out is what the sequences hand out, every list ends as its sequence,
an element reads as linked exactly when a sequence has it, and only an element that none has
cannot be taken out. -/
theorem cdll_refines_lists (calls : List (CdllCall ι ν)) (fuel : ℕ)
    (hlegal : Machine.Along CdllCall.onLists CdllCall.Legal (fun _ => []) calls)
    (hfuel : calls.length ≤ fuel) :
    ∃ heap, CdllHeap.init.run fuel calls =
        some (Machine.outputs CdllCall.onLists CdllCall.handsOut (fun _ => []) calls, heap) ∧
      (∀ i, (heap.list i).Holds heap.links
        (Machine.exec CdllCall.onLists (fun _ => []) calls i)) ∧
      (∀ a, cdllIsElemLinked heap.links a = true ↔
        ∃ i, a ∈ Machine.exec CdllCall.onLists (fun _ => []) calls i) ∧
      ∀ i a, cdllExtract heap.links (heap.list i) a = none ↔
        ∀ j, a ∉ Machine.exec CdllCall.onLists (fun _ => []) calls j := by
  obtain ⟨heap, hrun, hs⟩ := cdllHeap_run stands_init hlegal (fun i => by simpa using hfuel)
  exact ⟨heap, hrun, hs.holds, hs.linked_iff, hs.extract_fails_iff⟩

/-- Two lists in use at once: one is filled from both ends, the other is kept in order. -/
theorem cdll_two_lists :
    ∃ heap : CdllHeap Bool ℕ, CdllHeap.init.run 7
        [.pushBack false 1, .insert true 5 (fun a b => b ≤ a), .insertBefore false 1 3,
          .insert true 4 (fun a b => b ≤ a), .popFront false, .popFront true, .extract true 5] =
        some ([3, 4], heap) ∧
      (heap.list false).Holds heap.links [1] ∧ (heap.list true).Holds heap.links [] := by
  obtain ⟨heap, hrun, hhold, -⟩ := cdll_refines_lists
    [.pushBack false 1, .insert true 5 (fun a b => b ≤ a), .insertBefore false 1 3,
      .insert true 4 (fun a b => b ≤ a), .popFront false, .popFront true, .extract true 5]
    7 (by simp [CdllCall.Legal, CdllCall.onLists, insertBack, List.rdropWhile, List.rtakeWhile])
    (by simp)
  refine ⟨heap, ?_, ?_, ?_⟩
  · rw [hrun]
    simp [CdllCall.handsOut, CdllCall.onLists, insertBack, List.rdropWhile, List.rtakeWhile]
  · simpa [CdllCall.onLists, insertBack, List.rdropWhile, List.rtakeWhile] using hhold false
  · simpa [CdllCall.onLists, insertBack, List.rdropWhile, List.rtakeWhile] using hhold true

end ErgoDock
