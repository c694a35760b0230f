import Mathlib

/-! # Circular doubly linked lists

Two pointer maps, `next` and `prev`, in which several circular lists may live side by side.
`Ring m xs` says that the pointers of `m` carry the list `xs`: its nodes are distinct, each
points to its neighbours, and the last one is followed by the first.  A ring may be cut open
anywhere (`Ring.rotate`), so an insertion and a removal need one argument each
(`Ring.insert`, `Ring.remove`) wherever in the list they happen.  What is not written stays
as it is (`Ring.congr`), so a list is not disturbed by a change in another one. -/

/-- The two pointers of each node; `none` is the null pointer. -/
structure Links (ν : Type) where
  next : ν → Option ν
  prev : ν → Option ν

namespace Links

variable {ν : Type}

/-- The node `b` comes right after the node `a`. -/
def Linked (m : Links ν) (a b : ν) : Prop := m.next a = some b ∧ m.prev b = some a

/-- The pointers carry the circular list `xs`. -/
structure Ring (m : Links ν) (xs : List ν) : Prop where
  nodup : xs.Nodup
  chain : xs.IsChain m.Linked
  close : ∀ a ∈ xs.getLast?, ∀ b ∈ xs.head?, m.Linked a b

/-- Neither pointer of the node is set. -/
def Unlinked (m : Links ν) (a : ν) : Prop := m.next a = none ∧ m.prev a = none

/-- The two maps differ on the nodes `xs` at most. -/
def SameOutside (m m' : Links ν) (xs : List ν) : Prop :=
  ∀ a ∉ xs, m'.next a = m.next a ∧ m'.prev a = m.prev a

theorem ring_nil (m : Links ν) : m.Ring [] where
  nodup := List.nodup_nil
  chain := List.isChain_nil
  close := by simp

/-- The neighbours in a list without repetitions are linked by pointers that no write to the
last node's `next` or to the first node's `prev` touches. -/
theorem chain_congr {m m' : Links ν} {xs : List ν} (hc : xs.IsChain m.Linked) (hn : xs.Nodup)
    (hnext : ∀ a ∈ xs, a ∉ xs.getLast? → m'.next a = m.next a)
    (hprev : ∀ b ∈ xs, b ∉ xs.head? → m'.prev b = m.prev b) : xs.IsChain m'.Linked := by
  induction xs with
  | nil => exact List.isChain_nil
  | cons x t ih =>
    cases t with
    | nil => exact List.isChain_singleton x
    | cons y t =>
      rw [List.isChain_cons_cons] at hc ⊢
      rw [List.nodup_cons] at hn
      refine ⟨⟨?_, ?_⟩, ih hc.2 hn.2 ?_ ?_⟩
      · rw [hnext x (by simp), hc.1.1]
        intro hx
        rw [List.getLast?_cons_cons] at hx
        exact hn.1 (List.mem_of_mem_getLast? hx)
      · rw [hprev y (by simp), hc.1.2]
        intro hy
        simp only [List.head?_cons, Option.mem_def, Option.some.injEq] at hy
        exact hn.1 (hy ▸ List.mem_cons_self)
      · intro a ha hlast
        exact hnext a (List.mem_cons_of_mem x ha) (by rwa [List.getLast?_cons_cons])
      · intro b hb _
        refine hprev b (List.mem_cons_of_mem x hb) ?_
        intro hx
        simp only [List.head?_cons, Option.mem_def, Option.some.injEq] at hx
        exact hn.1 (hx ▸ hb)

namespace Ring

variable {m m' : Links ν} {xs ys zs : List ν} {h : ν}

/-- A ring is not disturbed by writes to other nodes. -/
theorem congr (hr : m.Ring xs) (hnext : ∀ a ∈ xs, m'.next a = m.next a)
    (hprev : ∀ a ∈ xs, m'.prev a = m.prev a) : m'.Ring xs where
  nodup := hr.nodup
  chain := chain_congr hr.chain hr.nodup (fun a ha _ => hnext a ha) (fun a ha _ => hprev a ha)
  close := by
    intro a ha b hb
    obtain ⟨h1, h2⟩ := hr.close a ha b hb
    exact ⟨by rw [hnext a (List.mem_of_mem_getLast? ha), h1],
      by rw [hprev b (List.mem_of_mem_head? hb), h2]⟩

/-- A ring may be cut open anywhere. -/
theorem rotate (hr : m.Ring (ys ++ zs)) : m.Ring (zs ++ ys) := by
  obtain ⟨hy, hz, hyz⟩ := List.isChain_append.mp hr.chain
  cases ys with
  | nil => simpa using hr
  | cons y ys =>
    cases zs with
    | nil => simpa using hr
    | cons z zs =>
      refine ⟨(List.perm_append_comm.nodup_iff).mp hr.nodup, List.isChain_append.mpr
        ⟨hz, hy, ?_⟩, ?_⟩
      · intro a ha b hb
        exact hr.close a (by rw [List.getLast?_append_cons]; exact ha) b hb
      · intro a ha b hb
        rw [List.getLast?_append_cons] at ha
        exact hyz a ha b hb

variable (ys zs)

theorem next_eq (hr : m.Ring (ys ++ h :: zs)) : m.next h = (zs ++ ys ++ [h]).head? := by
  have hr' : m.Ring (h :: (zs ++ ys)) := by simpa using hr.rotate
  cases hzy : zs ++ ys with
  | nil =>
    rw [hzy] at hr'
    exact (hr'.close h rfl h rfl).1
  | cons b us =>
    have hc := hr'.chain
    rw [hzy, List.isChain_cons_cons] at hc
    exact hc.1.1

theorem prev_eq (hr : m.Ring (ys ++ h :: zs)) : m.prev h = (h :: (zs ++ ys)).getLast? := by
  have hr' : m.Ring (h :: (zs ++ ys)) := by simpa using hr.rotate
  cases hl : (h :: (zs ++ ys)).getLast? with
  | none => simp at hl
  | some l => exact (hr'.close l hl h rfl).2

/-- A node between its new neighbours `p` and `n`, every other pointer left alone. -/
theorem insert {p n : ν} (hr : m.Ring (ys ++ zs)) (hh : h ∉ ys ++ zs)
    (hp : p ∈ (zs ++ ys).getLast?) (hn : n ∈ (zs ++ ys).head?)
    (hph : m'.Linked p h) (hhn : m'.Linked h n)
    (hnext : ∀ a ∈ ys ++ zs, a ≠ p → m'.next a = m.next a)
    (hprev : ∀ a ∈ ys ++ zs, a ≠ n → m'.prev a = m.prev a) : m'.Ring (ys ++ h :: zs) := by
  have hu : m.Ring (zs ++ ys) := hr.rotate
  have hmem : ∀ a, a ∈ zs ++ ys → a ∈ ys ++ zs := fun a ha => by
    rw [List.mem_append] at ha ⊢
    exact ha.symm
  have hend : m'.Ring (zs ++ ys ++ [h]) := by
    refine ⟨?_, List.isChain_append.mpr ⟨?_, List.isChain_singleton h, ?_⟩, ?_⟩
    · exact List.nodup_append.mpr ⟨hu.nodup, List.nodup_singleton h, by
        intro a ha b hb hab
        rw [List.mem_singleton] at hb
        exact hh (hmem h (hb ▸ hab ▸ ha))⟩
    · refine chain_congr hu.chain hu.nodup (fun a ha hl => ?_) (fun b hb hf => ?_)
      · exact hnext a (hmem a ha) (fun hap => hl (hap ▸ hp))
      · exact hprev b (hmem b hb) (fun hbn => hf (hbn ▸ hn))
    · intro a ha b hb
      rw [Option.mem_unique ha hp]
      simp only [List.head?_cons, Option.mem_def, Option.some.injEq] at hb
      exact hb ▸ hph
    · intro a ha b hb
      rw [List.getLast?_concat, Option.mem_def, Option.some.injEq] at ha
      rw [List.head?_append_of_ne_nil _ (List.ne_nil_of_mem (List.mem_of_mem_head? hn))] at hb
      rw [Option.mem_unique hb hn]
      exact ha ▸ hhn
  rw [List.append_assoc] at hend
  simpa using hend.rotate

/-- The neighbours `p` and `n` of a node linked past it, every other pointer left alone. -/
theorem remove {p n : ν} (hr : m.Ring (ys ++ h :: zs)) (hp : p ∈ (zs ++ ys).getLast?)
    (hn : n ∈ (zs ++ ys).head?) (hpn : m'.Linked p n)
    (hnext : ∀ a ∈ ys ++ zs, a ≠ p → m'.next a = m.next a)
    (hprev : ∀ a ∈ ys ++ zs, a ≠ n → m'.prev a = m.prev a) : m'.Ring (ys ++ zs) := by
  have hu : m.Ring (h :: (zs ++ ys)) := by simpa using hr.rotate
  have hmem : ∀ a, a ∈ zs ++ ys → a ∈ ys ++ zs := fun a ha => by
    rw [List.mem_append] at ha ⊢
    exact ha.symm
  have hcut : m'.Ring (zs ++ ys) := by
    refine ⟨(List.nodup_cons.mp hu.nodup).2, ?_, ?_⟩
    · refine chain_congr hu.chain.tail (List.nodup_cons.mp hu.nodup).2 (fun a ha hl => ?_)
        (fun b hb hf => ?_)
      · exact hnext a (hmem a ha) (fun hap => hl (hap ▸ hp))
      · exact hprev b (hmem b hb) (fun hbn => hf (hbn ▸ hn))
    · intro a ha b hb
      rw [Option.mem_unique ha hp, Option.mem_unique hb hn]
      exact hpn
  exact hcut.rotate

variable {ys zs}

/-- A node alone in its ring points to itself. -/
theorem single (hh : m.Linked h h) : m.Ring [h] where
  nodup := List.nodup_singleton h
  chain := List.isChain_singleton h
  close := by
    intro a ha b hb
    simp only [List.getLast?_singleton, List.head?_cons, Option.mem_def,
      Option.some.injEq] at ha hb
    rw [← ha, ← hb]
    exact hh

/-- Every node of a ring has both pointers set. -/
theorem linked_of_mem (hr : m.Ring xs) (hh : h ∈ xs) : ∃ p ∈ xs, ∃ n ∈ xs,
    m.next h = some n ∧ m.prev h = some p := by
  obtain ⟨ys, zs, rfl⟩ := List.append_of_mem hh
  cases hn : (zs ++ ys ++ [h]).head? with
  | none => simp at hn
  | some n =>
    cases hp : (h :: (zs ++ ys)).getLast? with
    | none => simp at hp
    | some p =>
      have hnm := List.mem_of_mem_head? hn
      have hpm := List.mem_of_mem_getLast? hp
      refine ⟨p, ?_, n, ?_, (hr.next_eq ys zs).trans hn, (hr.prev_eq ys zs).trans hp⟩
      · simp only [List.mem_cons, List.mem_append] at hpm ⊢
        tauto
      · simp only [List.mem_cons, List.mem_append, List.not_mem_nil] at hnm ⊢
        tauto

end Ring

theorem SameOutside.ring {m m' : Links ν} {xs ys : List ν} (hs : m.SameOutside m' xs)
    (hd : List.Disjoint xs ys) (hr : m.Ring ys) : m'.Ring ys :=
  hr.congr (fun a ha => (hs a (fun hx => hd hx ha)).1) (fun a ha => (hs a (fun hx => hd hx ha)).2)

section Writes

variable [DecidableEq ν]

/-- Write the `next` pointer of a node. -/
def setNext (m : Links ν) (a : ν) (b : Option ν) : Links ν :=
  { m with next := Function.update m.next a b }

/-- Write the `prev` pointer of a node. -/
def setPrev (m : Links ν) (a : ν) (b : Option ν) : Links ν :=
  { m with prev := Function.update m.prev a b }

@[simp] theorem setNext_next (m : Links ν) (a : ν) (b : Option ν) :
    (m.setNext a b).next = Function.update m.next a b := rfl

@[simp] theorem setNext_prev (m : Links ν) (a : ν) (b : Option ν) :
    (m.setNext a b).prev = m.prev := rfl

@[simp] theorem setPrev_next (m : Links ν) (a : ν) (b : Option ν) :
    (m.setPrev a b).next = m.next := rfl

@[simp] theorem setPrev_prev (m : Links ν) (a : ν) (b : Option ν) :
    (m.setPrev a b).prev = Function.update m.prev a b := rfl

end Writes

end Links
