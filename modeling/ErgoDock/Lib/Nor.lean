import Mathlib

/-! # NOR flash

A flash memory is a function from addresses to cells.  Erasing sets all cells of a sector;
programming can only clear bits, so what it leaves is a blend of what was there with what is
programmed.  A chip programs one page at a time through a page buffer: data that runs over the
end of the page wraps to its beginning, and of the bytes that fall on one cell the last one
counts (`program`).

`burn` is what a caller wants: the data programmed from an address on, with no pages.
`program_eq_burn` says when a page program does that, and `burn_tiles` puts the pieces of a range
together (`Tiles`).
`Toward` is the invariant of a transfer that may repeat itself: every cell is still erased or
has the wanted value already. -/

/-- The cells of a NOR flash. -/
class NorCell (α : Type) where
  erased : α
  /-- What programming the second value leaves in a cell that holds the first. -/
  blend : α → α → α
  erased_blend : ∀ d, blend erased d = d
  blend_self : ∀ d, blend d d = d

namespace Nor
open NorCell

variable {α : Type} [NorCell α] {f g : ℕ → α} {a off page sector : ℕ} {data : List α}

/-- Erase the sector that `off` lies in. -/
def erase (sector : ℕ) (f : ℕ → α) (off : ℕ) : ℕ → α := fun a =>
  if a / sector = off / sector then erased else f a

/-- The distance from `off` to `a` around the page. -/
def around (page off a : ℕ) : ℕ := (a % page + (page - off % page)) % page

/-- The position in a page program of `n` bytes at `off` of the byte that ends up at `a`, `n` or
more if there is none: the byte goes around the page as often as there is data for. -/
def latched (page off n a : ℕ) : ℕ :=
  around page off a + (n - 1 - around page off a) / page * page

/-- Program `data` from `off` on, inside the page of `off`. -/
def program (page : ℕ) (f : ℕ → α) (off : ℕ) (data : List α) : ℕ → α := fun a =>
  if a / page = off / page then
    (data[latched page off data.length a]?).elim (f a) (blend (f a))
  else f a

/-- Program `data` from `off` on, wherever the pages end. -/
def burn (f : ℕ → α) (off : ℕ) (data : List α) : ℕ → α := fun a =>
  if off ≤ a then (data[a - off]?).elim (f a) (blend (f a)) else f a

theorem erase_inside (h : a / sector = off / sector) : erase sector f off a = erased := if_pos h

theorem erase_outside (h : a / sector ≠ off / sector) : erase sector f off a = f a := if_neg h

/-! ### Programming -/

theorem burn_inside (h : off ≤ a) (hi : a - off < data.length) :
    burn f off data a = blend (f a) data[a - off] := by
  rw [burn, if_pos h, List.getElem?_eq_getElem hi, Option.elim_some]

theorem burn_outside (h : a < off ∨ off + data.length ≤ a) : burn f off data a = f a := by
  unfold burn
  split
  · next hle =>
    rw [List.getElem?_eq_none (by omega), Option.elim_none]
  · rfl

@[simp] theorem burn_nil : burn f off [] = f := by
  funext a
  exact burn_outside (by simp only [List.length_nil]; omega)

/-- Two pieces, one behind the other. -/
theorem burn_append (xs ys : List α) :
    burn (burn f off xs) (off + xs.length) ys = burn f off (xs ++ ys) := by
  funext a
  rcases Nat.lt_or_ge a (off + xs.length) with h | h
  · rw [burn_outside (.inl h)]
    unfold burn
    split
    · rw [List.getElem?_append_left (by omega)]
    · rfl
  · have hsub : a - off - xs.length = a - (off + xs.length) := by omega
    unfold burn
    rw [if_pos h, if_pos (by omega), if_pos (by omega),
      List.getElem?_append_right (by omega), hsub, List.getElem?_eq_none (l := xs) (by omega),
      Option.elim_none]

/-- The latch of a cell behind `off`, when the data fits in the page. -/
theorem latched_of_le (hp : 0 < page) (h : off % page ≤ a % page) {n : ℕ}
    (hn : off % page + n ≤ page) : latched page off n a = a % page - off % page := by
  have ha := Nat.mod_lt a hp
  have hd : around page off a = a % page - off % page := by
    rw [around, show a % page + (page - off % page) = page + (a % page - off % page) by omega,
      Nat.add_mod_left, Nat.mod_eq_of_lt (by omega)]
  unfold latched
  rw [hd, Nat.div_eq_of_lt (by omega)]
  omega

/-- Nothing is latched for a cell before `off`, when the data fits in the page. -/
theorem le_latched_of_lt (hp : 0 < page) (h : a % page < off % page) {n : ℕ}
    (hn : off % page + n ≤ page) : n ≤ latched page off n a := by
  have ho := Nat.mod_lt off hp
  have hd : n ≤ around page off a := by
    rw [around, Nat.mod_eq_of_lt (by omega)]
    omega
  exact Nat.le_trans hd (Nat.le_add_right ..)

/-- The cells a page program writes, when the data fits in the page. -/
theorem latched_lt_iff (hp : 0 < page) {n : ℕ} (h : off % page + n ≤ page) :
    a / page = off / page ∧ latched page off n a < n ↔ off ≤ a ∧ a < off + n := by
  have ha := Nat.div_add_mod a page
  have ho := Nat.div_add_mod off page
  constructor
  · rintro ⟨hpage, hlt⟩
    rw [hpage] at ha
    rcases Nat.lt_or_ge (a % page) (off % page) with hbefore | hle
    · exact absurd hlt (Nat.not_lt_of_le (le_latched_of_lt hp hbefore h))
    · rw [latched_of_le hp hle h] at hlt
      omega
  · rintro ⟨hle, hlt⟩
    have hpage : a / page = off / page := by
      refine (Nat.div_eq_iff hp).mpr ?_
      rw [Nat.mul_comm] at ho
      omega
    rw [hpage] at ha
    refine ⟨hpage, ?_⟩
    rw [latched_of_le hp (by omega) h]
    omega

/-- A page program that does not reach the end of its page. -/
theorem program_eq_burn (hp : 0 < page) (h : off % page + data.length ≤ page) :
    program page f off data = burn f off data := by
  funext a
  by_cases hin : off ≤ a ∧ a < off + data.length
  · have hpage := ((latched_lt_iff hp h).mpr hin).1
    have ha := Nat.div_add_mod a page
    have ho := Nat.div_add_mod off page
    rw [hpage] at ha
    rw [program, if_pos hpage, latched_of_le hp (by omega) h, burn, if_pos hin.1,
      show a - off = a % page - off % page by omega]
  · rw [burn_outside (by omega), program]
    split
    · next hpage =>
      have hle : data.length ≤ latched page off data.length a :=
        Nat.le_of_not_lt fun hlt => hin ((latched_lt_iff hp h).mp ⟨hpage, hlt⟩)
      rw [List.getElem?_eq_none hle, Option.elim_none]
    · rfl

/-- What blending keeps of a cell, a page program keeps, wherever its data goes. -/
theorem program_keeps {P : α → Prop} (hblend : ∀ c d, P c → P (blend c d)) (h : P (f a)) :
    P (program page f off data a) := by
  unfold program
  split
  · cases data[latched page off data.length a]? with
    | none => exact h
    | some d => exact hblend (f a) d h
  · exact h

/-- A page program leaves the other pages alone. -/
theorem program_outside (h : a / page ≠ off / page) : program page f off data a = f a := if_neg h

/-- A page program leaves the cells alone that no byte falls on. -/
theorem program_untouched (h : data.length ≤ latched page off data.length a) :
    program page f off data a = f a := by
  unfold program
  split
  · rw [List.getElem?_eq_none h, Option.elim_none]
  · rfl

/-! ### Pieces -/

/-- The pieces `(j, n)` of a list, each of length `n` from `j` on, are one behind the other and
reach from the first bound to the second. -/
inductive Tiles : ℕ → ℕ → List (ℕ × ℕ) → Prop
  | nil (a : ℕ) : Tiles a a []
  | cons {a n b : ℕ} {ps : List (ℕ × ℕ)} : Tiles (a + n) b ps → Tiles a b ((a, n) :: ps)

namespace Tiles
variable {lo hi : ℕ} {ps : List (ℕ × ℕ)}

theorem single (a n : ℕ) : Tiles a (a + n) [(a, n)] := .cons (.nil _)

theorem le (h : Tiles lo hi ps) : lo ≤ hi := by
  induction h with
  | nil a => exact Nat.le_refl a
  | cons _ ih => omega

theorem mem_bounds (h : Tiles lo hi ps) {q : ℕ × ℕ} (hq : q ∈ ps) : lo ≤ q.1 ∧ q.1 + q.2 ≤ hi := by
  induction h with
  | nil a => cases hq
  | cons ht ih =>
      rcases List.mem_cons.mp hq with rfl | hq
      · exact ⟨Nat.le_refl _, ht.le⟩
      · have := ih hq
        omega

/-- Every position between the bounds is in a piece. -/
theorem exists_piece (h : Tiles lo hi ps) {x : ℕ} (hlo : lo ≤ x) (hhi : x < hi) :
    ∃ q ∈ ps, q.1 ≤ x ∧ x < q.1 + q.2 := by
  induction h with
  | nil a => omega
  | @cons a n b ps ht ih =>
      rcases Nat.lt_or_ge x (a + n) with hx | hx
      · exact ⟨(a, n), List.mem_cons_self .., hlo, hx⟩
      · obtain ⟨q, hq, hb⟩ := ih hx hhi
        exact ⟨q, List.mem_cons_of_mem _ hq, hb⟩

end Tiles

/-- The values of `d` from `j` on, `n` of them. -/
def slice (d : ℕ → α) (j n : ℕ) : List α := (List.range n).map fun i => d (j + i)

omit [NorCell α] in
@[simp] theorem length_slice (d : ℕ → α) (j n : ℕ) : (slice d j n).length = n := by
  rw [slice, List.length_map, List.length_range]

omit [NorCell α] in
theorem slice_add (d : ℕ → α) (j n m : ℕ) :
    slice d j (n + m) = slice d j n ++ slice d (j + n) m := by
  unfold slice
  rw [List.range_add, List.map_append, List.map_map]
  congr 1
  exact List.map_congr_left fun i _ => by rw [Function.comp_apply, Nat.add_assoc]

omit [NorCell α] in
/-- The pieces of a range, one after the other. -/
theorem slice_tiles (d : ℕ → α) {lo hi : ℕ} {ps : List (ℕ × ℕ)} (h : Tiles lo hi ps) :
    ps.flatMap (fun q => slice d q.1 q.2) = slice d lo (hi - lo) := by
  induction h with
  | nil a => rw [Nat.sub_self, slice, List.range_zero, List.map_nil, List.flatMap_nil]
  | @cons a n b ps ht ih =>
      have hb := ht.le
      rw [List.flatMap_cons, ih, show b - a = n + (b - (a + n)) by omega, slice_add]

/-- Burning the pieces of a range burns the range. -/
theorem burn_tiles (d : ℕ → α) {lo hi : ℕ} {ps : List (ℕ × ℕ)} (h : Tiles lo hi ps) :
    ps.foldl (fun f q => burn f (off + q.1) (slice d q.1 q.2)) f =
      burn f (off + lo) (slice d lo (hi - lo)) := by
  induction h generalizing f with
  | nil a => rw [Nat.sub_self, slice, List.range_zero, List.map_nil, burn_nil, List.foldl_nil]
  | @cons a n b ps ht ih =>
      have hb := ht.le
      rw [List.foldl_cons, ih, show b - a = n + (b - (a + n)) by omega, slice_add,
        ← burn_append, length_slice, Nat.add_assoc]

/-! ### Transfers -/

/-- The cell `a` is still erased or has its value in `g` already. -/
def Toward (f g : ℕ → α) (a : ℕ) : Prop := f a = erased ∨ f a = g a

/-- `data` is what `g` holds from `off` on. -/
def Holds (g : ℕ → α) (off : ℕ) (data : List α) : Prop :=
  ∀ i (hi : i < data.length), data[i] = g (off + i)

theorem Toward.burn_inside (h : Toward f g a) (hd : Holds g off data) (hle : off ≤ a)
    (hlt : a < off + data.length) : burn f off data a = g a := by
  have hi : a - off < data.length := by omega
  have hv : data[a - off] = g a := by rw [hd (a - off) hi, Nat.add_sub_cancel' hle]
  rw [Nor.burn_inside hle hi, hv]
  rcases h with h | h
  · rw [h, erased_blend]
  · rw [h, blend_self]

/-- Burning wanted values keeps every cell on its way. -/
theorem Toward.burn (h : Toward f g a) (hd : Holds g off data) : Toward (burn f off data) g a := by
  by_cases hin : off ≤ a ∧ a < off + data.length
  · exact .inr (h.burn_inside hd hin.1 hin.2)
  · unfold Toward
    rwa [burn_outside (by omega)]

/-- A cell that has its value keeps it when wanted values are burnt. -/
theorem burn_of_eq (h : f a = g a) (hd : Holds g off data) : burn f off data a = g a := by
  by_cases hin : off ≤ a ∧ a < off + data.length
  · exact Toward.burn_inside (.inr h) hd hin.1 hin.2
  · rwa [burn_outside (by omega)]

end Nor
