import Mathlib

/-! # Values in a medium, with a shadow copy

A value is kept in a medium whose content may hold no value at all.  A shadow copy says what was
saved last, and a value is written only when it differs from the shadow copy (`sync`).

`Kept` is the invariant of such a store: a start loads exactly the shadow copy, where a content
without a value loads as a default.  After a `sync` a start therefore loads the value (`load_sync`).
The content itself holds the value only if it held one before or the value is not the default
(`read_sync_iff`): the default looks saved on a content without a value. -/

/-- What a content holds, if anything, and how a value is written. -/
structure Medium (π κ : Type) where
  /-- The contents that can take a value. -/
  Room : π → Prop
  /-- The values that are read back as they were written. -/
  Fits : κ → Prop
  read : π → Option κ
  write : π → κ → π
  room_write : ∀ {p c}, Room p → Room (write p c)
  read_write : ∀ {p c}, Room p → Fits c → read (write p c) = some c

/-- A content with its shadow copy. -/
structure Shadowed (π κ : Type) where
  content : π
  shadow : κ

namespace Medium

variable {π κ : Type} (m : Medium π κ) (dflt : κ)

/-- What a start loads. -/
def load (p : π) : κ := (m.read p).getD dflt

/-- The invariant of a store: room for a value, and the shadow copy as a start would load it. -/
structure Kept (s : Shadowed π κ) : Prop where
  room : m.Room s.content
  loaded : m.load dflt s.content = s.shadow

variable [DecidableEq κ] {s : Shadowed π κ} {c : κ}

/-- Save `c` unless it is the value saved last. -/
def sync (s : Shadowed π κ) (c : κ) : Shadowed π κ :=
  if s.shadow = c then s else ⟨m.write s.content c, c⟩

theorem sync_of_eq (h : s.shadow = c) : m.sync s c = s := if_pos h

theorem sync_of_ne (h : s.shadow ≠ c) : m.sync s c = ⟨m.write s.content c, c⟩ := if_neg h

@[simp] theorem shadow_sync : (m.sync s c).shadow = c := by
  rw [sync]
  split
  · assumption
  · rfl

variable {m dflt}

theorem kept_sync (hc : m.Fits c) (h : m.Kept dflt s) : m.Kept dflt (m.sync s c) := by
  by_cases hs : s.shadow = c
  · rw [m.sync_of_eq hs]
    exact h
  · rw [m.sync_of_ne hs]
    refine ⟨m.room_write h.room, ?_⟩
    rw [load, m.read_write h.room hc, Option.getD_some]

/-- After a `sync` a start loads the value. -/
theorem load_sync (hc : m.Fits c) (h : m.Kept dflt s) : m.load dflt (m.sync s c).content = c := by
  rw [(kept_sync hc h).loaded, shadow_sync]

/-- After a `sync` the content holds the value, unless it is the default on a content that held
none. -/
theorem read_sync_iff (hc : m.Fits c) (h : m.Kept dflt s) :
    m.read (m.sync s c).content = some c ↔ m.read s.content ≠ none ∨ c ≠ dflt := by
  have hloaded := h.loaded
  unfold load at hloaded
  by_cases hs : s.shadow = c
  · rw [m.sync_of_eq hs]
    cases hr : m.read s.content with
    | none =>
        rw [hr, Option.getD_none, hs] at hloaded
        simp [hloaded]
    | some c' =>
        rw [hr, Option.getD_some, hs] at hloaded
        simp [hloaded]
  · rw [m.sync_of_ne hs]
    refine iff_of_true (m.read_write h.room hc) ?_
    by_cases hr : m.read s.content = none
    · rw [hr, Option.getD_none] at hloaded
      exact .inr fun hd => hs (hloaded.symm.trans hd.symm)
    · exact .inl hr

end Medium
