import Mathlib.Algebra.Ring.Nat
import Mathlib.Data.List.Basic
import Mathlib.Data.List.Infix

/-!
# Dictionary coding

The tokens of an LZ77 coder either add a symbol to a history or copy a stretch of it from some distance
back. A copy goes symbol by symbol, so that one that is longer than its distance repeats what it has
written: it runs through the last `distance` symbols over and over. A coder that keeps a window of the
history reads the same from the window as from the whole, as long as no distance leaves it.
-/

namespace Lz77

variable {α : Type*}

/-! ### The window -/

/-- The last `n` symbols. -/
def window (n : Nat) (xs : List α) : List α := xs.drop (xs.length - n)

@[simp]
theorem length_window (n : Nat) (xs : List α) : (window n xs).length = min n xs.length := by
  unfold window
  rw [List.length_drop]
  omega

theorem window_of_le {n : Nat} {xs : List α} (h : xs.length ≤ n) : window n xs = xs := by
  unfold window
  rw [Nat.sub_eq_zero_of_le h, List.drop_zero]

theorem window_append_of_le {n : Nat} (xs : List α) {ys : List α} (h : n ≤ ys.length) :
    window n (xs ++ ys) = window n ys := by
  unfold window
  rw [List.length_append, List.drop_append, List.drop_eq_nil_of_le (by omega), List.nil_append]
  congr 1
  omega

theorem window_append_of_ge {n : Nat} (xs : List α) {ys : List α} (h : ys.length ≤ n) :
    window n (xs ++ ys) = window (n - ys.length) xs ++ ys := by
  unfold window
  have hstart : xs.length + ys.length - n = xs.length - (n - ys.length) := by omega
  rw [List.length_append, hstart, List.drop_append_of_le_length (by omega)]

theorem window_window {m n : Nat} (h : m ≤ n) (xs : List α) : window m (window n xs) = window m xs := by
  unfold window
  rw [List.length_drop, List.drop_drop]
  congr 1
  omega

/-- A window need only be kept of what was kept before. -/
theorem window_append_window (n : Nat) (xs ys : List α) :
    window n (window n xs ++ ys) = window n (xs ++ ys) := by
  by_cases h : n ≤ ys.length
  · rw [window_append_of_le _ h, window_append_of_le _ h]
  · rw [window_append_of_ge _ (by omega), window_append_of_ge _ (by omega),
      window_window (Nat.sub_le n _)]

theorem window_eq_drop {n k : Nat} {xs : List α} (h : k = xs.length - n) : window n xs = xs.drop k := by
  rw [h]
  rfl

/-! ### Copies -/

/-- The first `n` symbols of a chunk that repeats. -/
def cycle (chunk : List α) (n : Nat) : List α :=
  (List.range n).filterMap fun i => chunk[i % chunk.length]?

theorem cycle_zero (chunk : List α) : cycle chunk 0 = [] := rfl

theorem cycle_succ (chunk : List α) (n : Nat) :
    cycle chunk (n + 1) = cycle chunk n ++ (chunk[n % chunk.length]?).toList := by
  unfold cycle
  rw [List.range_succ, List.filterMap_append]
  cases h : chunk[n % chunk.length]? with
  | none => simp [h]
  | some a => simp [h]

theorem cycle_of_le {chunk : List α} {n : Nat} (h : n ≤ chunk.length) : cycle chunk n = chunk.take n := by
  induction n with
  | zero => rw [cycle_zero, List.take_zero]
  | succ n ih =>
      rw [cycle_succ, ih (by omega), Nat.mod_eq_of_lt h, ← List.take_add_one]

theorem cycle_add (chunk : List α) (n : Nat) : cycle chunk (chunk.length + n) = chunk ++ cycle chunk n := by
  induction n with
  | zero =>
      rw [Nat.add_zero, cycle_of_le (Nat.le_refl _), List.take_length, cycle_zero, List.append_nil]
  | succ n ih =>
      rw [← Nat.add_assoc, cycle_succ, ih, Nat.add_mod_left, cycle_succ, List.append_assoc]

theorem length_cycle {chunk : List α} (h : chunk ≠ []) (n : Nat) : (cycle chunk n).length = n := by
  have hpos : 0 < chunk.length := List.length_pos_iff.mpr h
  induction n with
  | zero => rw [cycle_zero, List.length_nil]
  | succ n ih =>
      rw [cycle_succ, List.length_append, ih, List.getElem?_eq_getElem (Nat.mod_lt n hpos),
        Option.toList_some, List.length_singleton]

theorem getElem?_cycle {chunk : List α} (h : chunk ≠ []) {n i : Nat} (hi : i < n) :
    (cycle chunk n)[i]? = chunk[i % chunk.length]? := by
  induction n with
  | zero => exact absurd hi (Nat.not_lt_zero i)
  | succ n ih =>
      rw [cycle_succ]
      by_cases hlast : i = n
      · have hpos : 0 < chunk.length := List.length_pos_iff.mpr h
        rw [hlast, List.getElem?_append_right (by rw [length_cycle h]), length_cycle h, Nat.sub_self,
          List.getElem?_eq_getElem (Nat.mod_lt n hpos), Option.toList_some, List.getElem?_cons_zero]
      · rw [List.getElem?_append_left (by rw [length_cycle h]; omega), ih (by omega)]

/-- What a chunk that repeats starts with only depends on the start of the chunk. -/
theorem cycle_take (chunk : List α) (n : Nat) : cycle (chunk.take n) n = cycle chunk n := by
  by_cases h : n ≤ chunk.length
  · have hlength : n ≤ (chunk.take n).length := by
      rw [List.length_take]
      omega
    rw [cycle_of_le hlength, cycle_of_le h, List.take_take, Nat.min_self]
  · rw [List.take_of_length_le (by omega)]

/-- The history after a copy of some length from `distance` symbols back, one symbol after the other. -/
def copy (history : List α) (distance : Nat) : Nat → List α
  | 0 => history
  | length + 1 =>
    let longer := copy history distance length
    longer ++ (longer[longer.length - distance]?).toList

/-- A copy runs through the last `distance` symbols. -/
theorem copy_eq {history : List α} {distance : Nat} (hpos : 0 < distance)
    (hle : distance ≤ history.length) (length : Nat) :
    copy history distance length = history ++ cycle (window distance history) length := by
  have hlength : (window distance history).length = distance := by
    rw [length_window]
    omega
  have hne : window distance history ≠ [] := by
    intro hnil
    rw [hnil, List.length_nil] at hlength
    omega
  induction length with
  | zero => rw [copy, cycle_zero, List.append_nil]
  | succ length ih =>
      rw [copy, ih, cycle_succ, ← List.append_assoc]
      congr 2
      rw [List.length_append, length_cycle hne]
      by_cases hfar : length < distance
      · have hplace : history.length + length - distance = history.length - distance + length := by omega
        rw [hplace, List.getElem?_append_left (by omega), hlength, Nat.mod_eq_of_lt hfar]
        unfold window
        rw [List.getElem?_drop]
      · have hplace : history.length + length - distance - history.length = length - distance := by omega
        rw [List.getElem?_append_right (by omega), hplace, getElem?_cycle hne (by omega), hlength]
        congr 1
        exact (Nat.mod_eq_sub_mod (by omega)).symm

/-! ### Tokens -/

inductive Token (α : Type*) where
  | literal (a : α)
  | copy (distance length : Nat)

/-- The history after a token. -/
def step (history : List α) : Token α → List α
  | .literal a => history ++ [a]
  | .copy distance length => copy history distance length

/-- The history after some tokens. -/
def expand (history : List α) (tokens : List (Token α)) : List α := tokens.foldl step history

/-- A copy reads from the history, and not from further back than `n`. -/
def Reaches (n : Nat) (history : List α) : Token α → Prop
  | .literal _ => True
  | .copy distance _ => 0 < distance ∧ distance ≤ n ∧ distance ≤ history.length

/-- Every copy reads from the history that there is when it is its turn. -/
def Valid (n : Nat) : List α → List (Token α) → Prop
  | _, [] => True
  | history, token :: tokens => Reaches n history token ∧ Valid n (step history token) tokens

/-- What a token adds to the history. -/
def added (history : List α) : Token α → List α
  | .literal a => [a]
  | .copy distance length => cycle (window distance history) length

theorem step_eq_append {n : Nat} {history : List α} {token : Token α} (h : Reaches n history token) :
    step history token = history ++ added history token := by
  cases token with
  | literal a => rfl
  | copy distance length => exact copy_eq h.1 h.2.2 length

theorem length_added {n : Nat} {history : List α} {distance : Nat} (length : Nat)
    (h : Reaches n history (.copy distance length)) :
    (added history (.copy distance length)).length = length := by
  apply length_cycle
  intro hnil
  have hlength := congrArg List.length hnil
  rw [length_window, List.length_nil] at hlength
  have hpos := h.1
  have hle := h.2.2
  omega

/-- Whatever was there before the history, a token adds the same. -/
theorem added_append {n : Nat} (before : List α) {history : List α} {token : Token α}
    (h : Reaches n history token) : added (before ++ history) token = added history token := by
  cases token with
  | literal a => rfl
  | copy distance length =>
      change cycle (window distance (before ++ history)) length = cycle (window distance history) length
      rw [window_append_of_le _ h.2.2]

theorem Reaches.append {n : Nat} (before : List α) {history : List α} {token : Token α}
    (h : Reaches n history token) : Reaches n (before ++ history) token := by
  cases token with
  | literal a => trivial
  | copy distance length =>
      refine ⟨h.1, h.2.1, ?_⟩
      rw [List.length_append]
      exact Nat.le_add_left_of_le h.2.2

/-! ### Runs of tokens -/

theorem expand_cons (history : List α) (token : Token α) (tokens : List (Token α)) :
    expand history (token :: tokens) = expand (step history token) tokens := rfl

/-- Tokens only add to the history. -/
theorem Valid.exists_append {n : Nat} {history : List α} {tokens : List (Token α)}
    (h : Valid n history tokens) : ∃ bytes, expand history tokens = history ++ bytes := by
  induction tokens generalizing history with
  | nil => exact ⟨[], (List.append_nil history).symm⟩
  | cons token tokens ih =>
      obtain ⟨bytes, hbytes⟩ := ih h.2
      refine ⟨added history token ++ bytes, ?_⟩
      rw [expand_cons, hbytes, step_eq_append h.1, List.append_assoc]

theorem Valid.cons {n : Nat} {history : List α} {token : Token α} {tokens : List (Token α)}
    (hreach : Reaches n history token) (h : Valid n (history ++ added history token) tokens) :
    Valid n history (token :: tokens) := by
  refine ⟨hreach, ?_⟩
  rw [step_eq_append hreach]
  exact h

/-- Whatever was there before the history, valid tokens stay valid and add the same. -/
theorem Valid.append {n : Nat} (before : List α) {history : List α} {tokens : List (Token α)}
    (h : Valid n history tokens) :
    Valid n (before ++ history) tokens ∧
      expand (before ++ history) tokens = before ++ expand history tokens := by
  induction tokens generalizing history with
  | nil => exact ⟨trivial, rfl⟩
  | cons token tokens ih =>
      have hstep : step (before ++ history) token = before ++ step history token := by
        rw [step_eq_append h.1, step_eq_append (h.1.append before), added_append before h.1,
          List.append_assoc]
      obtain ⟨hvalid, hexpand⟩ := ih h.2
      rw [← hstep] at hvalid hexpand
      exact ⟨⟨h.1.append before, hvalid⟩, hexpand⟩

/-- A stretch that is found again is what its copy adds. -/
theorem added_of_found {history found : List α} {distance : Nat}
    (hfound : found <+: window distance history) :
    added history (.copy distance found.length) = found := by
  change cycle (window distance history) found.length = found
  rw [cycle_of_le hfound.length_le]
  exact (List.prefix_iff_eq_take.mp hfound).symm

end Lz77
