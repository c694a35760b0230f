import ErgoDock.Lib.Run

/-! # Receivers that cut frames at ticks

Bytes arrive one at a time in a bounded buffer; at a tick the receiver looks at what has come in.
Bytes that have waited too long are dropped, a complete frame is handed on if it is valid, and
whatever the buffer holds behind the frame is dropped with it.

A frame that arrives in an empty buffer, with few enough ticks between its bytes, is handed on at
the first tick after its last byte (`handed_frame`), and after enough ticks without a byte the
buffer is empty (`received_ticks`).  For frames sent back to back the ticks decide: all of them are
handed on, once and in order, if and only if a tick falls right behind each (`handed_eq_iff`). -/

/-- What reaches a receiver. -/
inductive Signal (β : Type) where
  | byte (b : β)
  | tick
deriving DecidableEq

namespace Signal

variable {β : Type}

/-- The bytes among the signals. -/
def bytes : List (Signal β) → List β
  | [] => []
  | byte b :: es => b :: bytes es
  | tick :: es => bytes es

@[simp] theorem bytes_nil : bytes ([] : List (Signal β)) = [] := rfl

@[simp] theorem bytes_byte (b : β) (es : List (Signal β)) : bytes (byte b :: es) = b :: bytes es :=
  rfl

@[simp] theorem bytes_tick (es : List (Signal β)) : bytes (tick :: es) = bytes es := rfl

@[simp] theorem bytes_append (es fs : List (Signal β)) :
    bytes (es ++ fs) = bytes es ++ bytes fs := by
  induction es with
  | nil => rfl
  | cons e es ih =>
      cases e with
      | byte b => simp [ih]
      | tick => simp [ih]

@[simp] theorem bytes_ticks (n : ℕ) : bytes (List.replicate n (tick : Signal β)) = [] := by
  induction n with
  | zero => rfl
  | succ n ih => rw [List.replicate_succ, bytes_tick, ih]

/-- Of some ticks, the first one may be split off. -/
theorem ticks_append_tick (n : ℕ) (es : List (Signal β)) :
    List.replicate n tick ++ tick :: es = tick :: (List.replicate n tick ++ es) := by
  rw [List.append_cons, ← List.replicate_succ', List.replicate_succ, List.cons_append]

/-- Fewer than `patience` ticks fall between two bytes that follow each other.  The first argument
is the number of ticks that may still come before the next byte; before the first byte, any. -/
def Paced (patience : ℕ) : Option ℕ → List (Signal β) → Prop
  | _, [] => True
  | _, byte _ :: es => Paced patience (some (patience - 1)) es
  | none, tick :: es => Paced patience none es
  | some n, tick :: es => (0 < n ∨ bytes es = []) ∧ Paced patience (some (n - 1)) es

instance decidablePaced [DecidableEq β] (patience : ℕ) :
    (a : Option ℕ) → (es : List (Signal β)) → Decidable (Paced patience a es)
  | _, [] => .isTrue trivial
  | _, byte _ :: es => decidablePaced patience (some (patience - 1)) es
  | none, tick :: es => decidablePaced patience none es
  | some n, tick :: es =>
      @instDecidableAnd _ _ inferInstance (decidablePaced patience (some (n - 1)) es)

theorem paced_tail {patience : ℕ} {a : Option ℕ} {e : Signal β} {es : List (Signal β)}
    (h : Paced patience a (e :: es)) : ∃ a', Paced patience a' es := by
  cases e with
  | byte b => exact ⟨_, h⟩
  | tick =>
      cases a with
      | none => exact ⟨_, h⟩
      | some n => exact ⟨_, h.2⟩

/-- Without a byte waiting, no tick comes too late. -/
theorem Paced.fresh {patience : ℕ} {a : Option ℕ} {es : List (Signal β)} (h : Paced patience a es) :
    Paced patience none es := by
  induction es generalizing a with
  | nil => trivial
  | cons e es ih =>
      cases e with
      | byte b => exact h
      | tick =>
          obtain ⟨a', h'⟩ := paced_tail h
          exact ih h'

theorem Paced.suffix {patience : ℕ} {a : Option ℕ} {es fs : List (Signal β)}
    (h : Paced patience a (es ++ fs)) : Paced patience none fs := by
  induction es generalizing a with
  | nil => exact h.fresh
  | cons e es ih =>
      obtain ⟨a', h'⟩ := paced_tail h
      exact ih h'

theorem Paced.prefix {patience : ℕ} {a : Option ℕ} {es fs : List (Signal β)}
    (h : Paced patience a (es ++ fs)) : Paced patience a es := by
  induction es generalizing a with
  | nil => trivial
  | cons e es ih =>
      cases e with
      | byte b => exact ih h
      | tick =>
          cases a with
          | none => exact ih h
          | some n =>
              refine ⟨h.1.imp_right fun h0 => ?_, ih h.2⟩
              have h0' : bytes es ++ bytes fs = [] := (bytes_append es fs).symm.trans h0
              exact (List.append_eq_nil_iff.mp h0').1

/-- Signals with a byte among them end in a last byte and the ticks behind it. -/
theorem exists_last_byte {es : List (Signal β)} (h : bytes es ≠ []) :
    ∃ xs b n, es = xs ++ byte b :: List.replicate n tick := by
  induction es with
  | nil => exact absurd rfl h
  | cons e es ih =>
      by_cases h0 : bytes es = []
      · -- only ticks are left, so `e` is the last byte
        have hticks : es = List.replicate es.length tick := by
          clear ih h
          induction es with
          | nil => rfl
          | cons e es ih =>
              cases e with
              | byte b => cases h0
              | tick => rw [List.length_cons, List.replicate_succ, ← ih h0]
        cases e with
        | byte b => exact ⟨[], b, es.length, by rw [List.nil_append, ← hticks]⟩
        | tick => exact absurd h0 h
      · obtain ⟨xs, b, n, rfl⟩ := ih h0
        exact ⟨e :: xs, b, n, rfl⟩

end Signal

open Machine Signal

/-- How long the frame is that begins with given bytes, and when it is valid; the size of the
buffer, and how many ticks bytes may wait for the next one. -/
structure Framer (β : Type) where
  capacity : ℕ
  patience : ℕ
  frameLength : List β → ℕ
  valid : List β → Bool

/-- The buffer and the ticks left. -/
structure FramerState (β : Type) where
  received : List β
  timeout : ℕ

namespace Framer

variable {β : Type} (F : Framer β)

def Complete (xs : List β) : Prop := 0 < xs.length ∧ F.frameLength xs ≤ xs.length

instance (xs : List β) : Decidable (F.Complete xs) := by unfold Complete; infer_instance

/-- A byte is appended if there is room. -/
def push (s : FramerState β) (b : β) : FramerState β :=
  if s.received.length < F.capacity then ⟨s.received ++ [b], F.patience⟩ else s

/-- One tick less, and what has waited too long is dropped. -/
def countdown (s : FramerState β) : FramerState β :=
  ⟨if s.timeout - 1 = 0 then [] else s.received, s.timeout - 1⟩

def step (s : FramerState β) : Signal β → FramerState β
  | .byte b => F.push s b
  | .tick =>
      if F.Complete (countdown s).received then ⟨[], (countdown s).timeout⟩ else countdown s

/-- The frame that a tick hands on, if any. -/
def handed (s : FramerState β) : Signal β → List (List β)
  | .byte _ => []
  | .tick =>
      let xs := (countdown s).received
      if F.Complete xs ∧ F.valid xs then [xs.take (F.frameLength xs)] else []

/-- A valid frame that fits, and that is not complete before its last byte. -/
structure IsFrame (f : List β) : Prop where
  length_le : f.length ≤ F.capacity
  complete : F.Complete f
  frameLength_eq : F.frameLength f = f.length
  valid : F.valid f = true
  partial_not : ∀ p, p <+: f → p ≠ f → ¬ F.Complete p

variable {F} {s : FramerState β} {f : List β} {fs : List (List β)} {es : List (Signal β)}

/-! ### Silence -/

theorem step_tick : F.step s .tick =
    if F.Complete (countdown s).received then ⟨[], (countdown s).timeout⟩ else countdown s := rfl

theorem timeout_step_tick : (F.step s .tick).timeout = s.timeout - 1 := by
  rw [step_tick]
  split <;> rfl

/-- Bytes never wait longer than the patience. -/
theorem timeout_le (h : s.timeout ≤ F.patience) (es : List (Signal β)) :
    (exec F.step s es).timeout ≤ F.patience := by
  refine exec_invariant_all (I := fun s : FramerState β => s.timeout ≤ F.patience) ?_ h es
  intro s e hs
  cases e with
  | byte b =>
      change (F.push s b).timeout ≤ F.patience
      unfold push
      split
      · exact Nat.le_refl _
      · exact hs
  | tick =>
      rw [timeout_step_tick]
      omega

/-- A tick that finds no bytes, or drops them, leaves none. -/
theorem received_step_tick (h : s.received = [] ∨ s.timeout ≤ 1) :
    (F.step s .tick).received = [] := by
  have h0 : (countdown s).received = [] := by
    unfold countdown
    split
    · rfl
    · exact h.resolve_right (by omega)
  rw [step_tick]
  split
  · rfl
  · exact h0

/-- An empty buffer stays empty as long as no byte comes. -/
theorem received_ticks_nil (n : ℕ) (h : s.received = []) :
    (exec F.step s (List.replicate n .tick)).received = [] := by
  induction n generalizing s with
  | zero => exact h
  | succ n ih =>
      rw [List.replicate_succ, exec_cons]
      exact ih (received_step_tick (.inl h))

/-- After enough ticks without a byte the buffer is empty. -/
theorem received_ticks {n : ℕ} (hn : 0 < n) (h : s.timeout ≤ n) :
    (exec F.step s (List.replicate n .tick)).received = [] := by
  induction n generalizing s with
  | zero => omega
  | succ n ih =>
      rw [List.replicate_succ, exec_cons]
      by_cases h1 : s.timeout ≤ 1
      · -- the bytes are dropped now, and nothing comes after them
        exact received_ticks_nil n (received_step_tick (.inr h1))
      · refine ih (by omega) ?_
        rw [timeout_step_tick]
        omega

/-! ### One frame -/

theorem handed_nil (h : s.received = []) : F.handed s .tick = [] := by
  have h0 : (countdown s).received = [] := by
    unfold countdown
    split
    · rfl
    · exact h
  simp [handed, h0, Complete]

/-- Up to its last byte nothing is handed on, and then the frame is in the buffer. -/
theorem exec_frame (hp : 0 < F.patience) (hf : F.IsFrame f) {c : β} {a : Option ℕ}
    (hbytes : s.received ++ bytes (es ++ [Signal.byte c]) = f)
    (hpaced : Paced F.patience a (es ++ [Signal.byte c]))
    (hwait : s.received = [] ∨ ∃ n, a = some n ∧ n < s.timeout) :
    exec F.step s (es ++ [Signal.byte c]) = ⟨f, F.patience⟩ ∧
      outputs F.step F.handed s (es ++ [Signal.byte c]) = [] := by
  have hroom : s.received.length < F.capacity := by
    have hlen := congrArg List.length hbytes
    rw [bytes_append, List.length_append, List.length_append] at hlen
    have := hf.length_le
    simp only [bytes_byte, bytes_nil, List.length_singleton] at hlen
    omega
  induction es generalizing s a with
  | nil =>
      have hbuf : s.received ++ [c] = f := hbytes
      simp [step, push, hroom, handed, hbuf]
  | cons e es ih =>
      cases e with
      | byte b =>
          have hstep : F.step s (.byte b) = ⟨s.received ++ [b], F.patience⟩ := if_pos hroom
          have hbytes' : s.received ++ [b] ++ bytes (es ++ [.byte c]) = f := by
            rw [List.append_assoc]
            exact hbytes
          have hroom' : (s.received ++ [b]).length < F.capacity := by
            have hlen := congrArg List.length hbytes'
            have := hf.length_le
            simp only [bytes_append, bytes_byte, bytes_nil, List.length_append,
              List.length_singleton] at hlen ⊢
            omega
          have hnext := ih (s := ⟨s.received ++ [b], F.patience⟩) (a := some (F.patience - 1))
            hbytes' hpaced (.inr ⟨_, rfl, Nat.sub_lt hp Nat.one_pos⟩) hroom'
          rw [List.cons_append, exec_cons, outputs_cons, hstep]
          exact ⟨hnext.1, by rw [hnext.2]; rfl⟩
      | tick =>
          -- what is in the buffer is no complete frame yet, and it is kept
          have hpart : ¬ F.Complete s.received := by
            refine hf.partial_not _ ⟨_, hbytes⟩ fun heq => ?_
            rw [heq] at hbytes
            have := List.self_eq_append_right.mp hbytes.symm
            simp at this
          have hkeep : (countdown s).received = s.received := by
            unfold countdown
            rcases hwait with h0 | ⟨n, rfl, hn⟩
            · simp [h0]
            · have hlate : 0 < n := hpaced.1.resolve_right (by simp)
              exact if_neg (by omega)
          have hstep : F.step s .tick = ⟨s.received, s.timeout - 1⟩ := by
            rw [step_tick, hkeep, if_neg hpart, ← hkeep]
            rfl
          have hout : F.handed s .tick = [] := by
            simp [handed, hkeep, hpart]
          obtain ⟨a', hpaced', hwait'⟩ : ∃ a', Paced F.patience a' (es ++ [.byte c]) ∧
              (s.received = [] ∨ ∃ n, a' = some n ∧ n < s.timeout - 1) := by
            cases a with
            | none => exact ⟨none, hpaced, hwait.imp_right fun ⟨n, h, _⟩ => nomatch h⟩
            | some n =>
                refine ⟨some (n - 1), hpaced.2, hwait.imp_right ?_⟩
                rintro ⟨m, hm', hm⟩
                cases hm'
                have hlate : 0 < n := hpaced.1.resolve_right (by simp)
                exact ⟨n - 1, rfl, by omega⟩
          have hnext := ih (s := ⟨s.received, s.timeout - 1⟩) hbytes hpaced' hwait' hroom
          rw [List.cons_append, exec_cons, outputs_cons, hstep, hout]
          exact ⟨hnext.1, by rw [hnext.2]; rfl⟩

/-- A tick with a whole frame in the buffer hands it on and empties the buffer. -/
theorem step_frame (hf : F.IsFrame f) {t : ℕ} (ht : 1 < t) :
    F.handed ⟨f, t⟩ .tick = [f] ∧ F.step ⟨f, t⟩ .tick = ⟨[], t - 1⟩ := by
  have hkeep : (countdown ⟨f, t⟩).received = f := if_neg (by dsimp only; omega)
  constructor
  · simp [handed, hkeep, hf.complete, hf.valid, hf.frameLength_eq]
  · rw [step_tick, hkeep, if_pos hf.complete]
    rfl

/-- A frame that arrives in an empty buffer is handed on at the first tick after its last byte, and
at no other. -/
theorem handed_frame (hp : 1 < F.patience) (hf : F.IsFrame f) {c : β} (h0 : s.received = [])
    (hbytes : bytes (es ++ [Signal.byte c]) = f)
    (hpaced : Paced F.patience none (es ++ [Signal.byte c])) :
    outputs F.step F.handed s (es ++ [Signal.byte c]) = [] ∧
      outputs F.step F.handed s (es ++ [Signal.byte c] ++ [Signal.tick]) = [f] ∧
      (exec F.step s (es ++ [Signal.byte c] ++ [Signal.tick])).received = [] := by
  obtain ⟨hexec, hout⟩ := exec_frame (Nat.lt_of_succ_lt hp) hf
    (by rw [h0, List.nil_append]; exact hbytes) hpaced (.inl h0)
  obtain ⟨hhand, hstep⟩ := step_frame hf hp
  refine ⟨hout, ?_, ?_⟩
  · rw [outputs_append, hout, hexec, outputs_cons, hhand]
    rfl
  · rw [exec_append, hexec, exec_cons, hstep]
    rfl

/-! ### Frames back to back -/

/-- Right behind each of the frames falls a tick. -/
def Separated (fs : List (List β)) (es : List (Signal β)) : Prop :=
  ∀ gs, gs ≠ [] → gs <+: fs → ∃ xs ys, es = xs ++ .tick :: ys ∧ bytes xs = gs.flatten

theorem outputs_of_silent (h0 : s.received = []) (h : bytes es = []) :
    outputs F.step F.handed s es = [] := by
  induction es generalizing s with
  | nil => rfl
  | cons e es ih =>
      cases e with
      | byte b => cases h
      | tick =>
          rw [outputs_cons, handed_nil h0, ih (received_step_tick (.inl h0)) h, List.nil_append]

/-- What is handed on at a tick has come in, and nothing stays. -/
theorem received_of_handed (h : F.handed s .tick = [f]) :
    f.length ≤ s.received.length ∧ (F.step s .tick).received = [] := by
  have hle : (countdown s).received.length ≤ s.received.length := by
    unfold countdown
    split
    · exact Nat.zero_le _
    · exact Nat.le_refl _
  dsimp only [handed] at h
  split at h
  · next hc =>
    rw [← List.singleton_injective h, step_tick, if_pos hc.1, List.length_take]
    exact ⟨by omega, rfl⟩
  · cases h

theorem handed_cases (s : FramerState β) : F.handed s .tick = [] ∨ ∃ f, F.handed s .tick = [f] := by
  dsimp only [handed]
  split
  · exact .inr ⟨_, rfl⟩
  · exact .inl rfl

theorem length_received_step (s : FramerState β) (e : Signal β) :
    (F.handed s e).flatten.length + (F.step s e).received.length ≤
      s.received.length + (bytes [e]).length := by
  cases e with
  | byte b =>
      simp only [handed, step, push, bytes_byte, bytes_nil]
      split <;> simp
  | tick =>
      rcases handed_cases s with h | ⟨f, h⟩
      · have hle : (F.step s .tick).received.length ≤ s.received.length := by
          rw [step_tick]
          unfold countdown
          split
          · exact Nat.zero_le _
          · dsimp only
            split
            · exact Nat.zero_le _
            · exact Nat.le_refl _
        rw [h, List.flatten_nil, List.length_nil, bytes_tick, bytes_nil, List.length_nil]
        omega
      · obtain ⟨hle, hnil⟩ := received_of_handed h
        rw [h, hnil, List.flatten_singleton, List.length_nil, bytes_tick, bytes_nil,
          List.length_nil]
        omega

/-- No byte is handed on twice. -/
theorem length_received_exec (s : FramerState β) (es : List (Signal β)) :
    (outputs F.step F.handed s es).flatten.length + (exec F.step s es).received.length ≤
      s.received.length + (bytes es).length := by
  induction es generalizing s with
  | nil => simp
  | cons e es ih =>
      have hstep := F.length_received_step s e
      have hrest := ih (F.step s e)
      have hsplit : bytes (e :: es) = bytes [e] ++ bytes es := bytes_append [e] es
      rw [outputs_cons, exec_cons, List.flatten_append, List.length_append, hsplit,
        List.length_append]
      omega

/-- The first frame that is handed on. -/
theorem exists_first_handed (h : outputs F.step F.handed s es = f :: fs) :
    ∃ xs ys, es = xs ++ .tick :: ys ∧ outputs F.step F.handed s xs = [] ∧
      F.handed (exec F.step s xs) .tick = [f] ∧
      outputs F.step F.handed (F.step (exec F.step s xs) .tick) ys = fs := by
  induction es generalizing s with
  | nil => cases h
  | cons e es ih =>
      have hlater : ∀ hnil : F.handed s e = [], _ := fun hnil =>
        ih (s := F.step s e) (by rw [outputs_cons, hnil] at h; exact h)
      cases e with
      | byte b =>
          obtain ⟨xs, ys, rfl, hx, hh, hy⟩ := hlater rfl
          exact ⟨.byte b :: xs, ys, rfl, by rw [outputs_cons, hx]; rfl, hh, hy⟩
      | tick =>
          rcases handed_cases s with hnil | ⟨g, hg⟩
          · obtain ⟨xs, ys, rfl, hx, hh, hy⟩ := hlater hnil
            exact ⟨.tick :: xs, ys, rfl, by rw [outputs_cons, hnil, hx]; rfl, hh, hy⟩
          · rw [outputs_cons, hg] at h
            obtain ⟨rfl, rfl⟩ := List.cons.inj h
            exact ⟨[], es, rfl, rfl, hg, rfl⟩

theorem separated_of_handed (h0 : s.received = []) (hbytes : bytes es = fs.flatten)
    (h : outputs F.step F.handed s es = fs) : Separated fs es := by
  induction fs generalizing s es with
  | nil => exact fun gs hne hp => absurd (List.prefix_nil.mp hp) hne
  | cons f fs ih =>
      obtain ⟨xs, ys, rfl, hx, hhand, hy⟩ := exists_first_handed h
      obtain ⟨hle, hnil⟩ := received_of_handed hhand
      -- the bytes before the tick are just the frame: the rest is needed for the other frames
      have h1 := F.length_received_exec s xs
      have h2 := F.length_received_exec (F.step (exec F.step s xs) .tick) ys
      rw [h0, List.length_nil] at h1
      rw [hy, hnil, List.length_nil] at h2
      rw [bytes_append, bytes_tick, List.flatten_cons] at hbytes
      have htotal := congrArg List.length hbytes
      rw [List.length_append, List.length_append] at htotal
      obtain ⟨hf, hrest⟩ := List.append_inj hbytes (by omega)
      intro gs hne hp
      cases gs with
      | nil => exact absurd rfl hne
      | cons g gs =>
          obtain ⟨rfl, hp'⟩ := List.cons_prefix_cons.mp hp
          by_cases hgs : gs = []
          · exact ⟨xs, ys, rfl, by rw [hf, hgs]; simp⟩
          · obtain ⟨us, vs, rfl, hu⟩ := ih hnil hrest hy gs hgs hp'
            refine ⟨xs ++ .tick :: us, vs, by simp, ?_⟩
            rw [bytes_append, bytes_tick, hf, hu, List.flatten_cons]

theorem Separated.tail {ws : List (Signal β)} (hw : bytes ws = f)
    (hne : ∀ g ∈ fs, g ≠ []) (h : Separated (f :: fs) (ws ++ es)) : Separated fs es := by
  intro gs hgs hp
  obtain ⟨xs, ys, heq, hx⟩ := h (f :: gs) (List.cons_ne_nil f gs)
    (List.cons_prefix_cons.mpr ⟨rfl, hp⟩)
  rw [List.flatten_cons] at hx
  rcases List.append_eq_append_iff.mp heq with ⟨us, rfl, hu⟩ | ⟨us, rfl, -⟩
  · rw [bytes_append, hw] at hx
    exact ⟨us, ys, hu, List.append_cancel_left hx⟩
  · -- the tick would fall inside the first frame
    rw [bytes_append] at hw
    have hlen := congrArg List.length hw
    rw [List.length_append, hx, List.length_append] at hlen
    obtain ⟨g, gs', rfl⟩ := List.exists_cons_of_ne_nil hgs
    have hpos := List.length_pos_iff.mpr (hne g (hp.subset (List.mem_cons_self ..)))
    rw [List.flatten_cons, List.length_append] at hlen
    omega

theorem handed_of_separated (hp : 1 < F.patience) (hfs : ∀ f ∈ fs, F.IsFrame f)
    (h0 : s.received = []) (hbytes : bytes es = fs.flatten) (hpaced : Paced F.patience none es)
    (h : Separated fs es) : outputs F.step F.handed s es = fs := by
  induction fs generalizing s es with
  | nil => exact outputs_of_silent h0 hbytes
  | cons f fs ih =>
      have hf := hfs f (List.mem_cons_self ..)
      obtain ⟨xs, ys, rfl, hx⟩ := h [f] (List.cons_ne_nil f [])
        (List.cons_prefix_cons.mpr ⟨rfl, List.nil_prefix⟩)
      rw [List.flatten_singleton] at hx
      have hpos := hf.complete.1
      have hxs : bytes xs ≠ [] := hx ▸ List.length_pos_iff.mp hpos
      obtain ⟨zs, c, n, rfl⟩ := exists_last_byte hxs
      -- the first tick behind the last byte is the one that matters
      have hsplit : zs ++ Signal.byte c :: List.replicate n Signal.tick ++ Signal.tick :: ys =
          zs ++ [Signal.byte c] ++ [Signal.tick] ++ (List.replicate n Signal.tick ++ ys) := by
        rw [List.append_assoc, List.cons_append, ticks_append_tick]
        simp
      have hz : bytes (zs ++ [Signal.byte c]) = f := by
        rw [← hx, bytes_append, bytes_append, bytes_byte, bytes_byte, bytes_ticks, bytes_nil]
      rw [hsplit] at hbytes hpaced h ⊢
      have hfirst : bytes (zs ++ [Signal.byte c] ++ [Signal.tick]) = f := by
        rw [bytes_append, hz, bytes_tick, bytes_nil, List.append_nil]
      rw [bytes_append, hfirst, List.flatten_cons] at hbytes
      obtain ⟨-, hout, hnil⟩ := handed_frame hp hf h0 hz hpaced.prefix.prefix
      rw [outputs_append, hout, ih (fun g hg => hfs g (List.mem_cons_of_mem f hg)) hnil
        (List.append_cancel_left hbytes) hpaced.suffix (h.tail hfirst fun g hg =>
          List.length_pos_iff.mp (hfs g (List.mem_cons_of_mem f hg)).complete.1)]
      rfl

/-- Frames that are sent back to back, with few enough ticks between their bytes, are all handed
on, once and in order, if and only if a tick falls right behind each. -/
theorem handed_eq_iff (hp : 1 < F.patience) (hfs : ∀ f ∈ fs, F.IsFrame f) (h0 : s.received = [])
    (hbytes : bytes es = fs.flatten) (hpaced : Paced F.patience none es) :
    outputs F.step F.handed s es = fs ↔ Separated fs es :=
  ⟨separated_of_handed h0 hbytes, handed_of_separated hp hfs h0 hbytes hpaced⟩

end Framer
