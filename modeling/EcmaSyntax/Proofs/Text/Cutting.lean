import EcmaSyntax.Text.Size

/-! Cuts of a text at byte offsets, as decompositions of its list of characters. A cut succeeds
exactly at the offsets where a character begins or the text ends.
-/

namespace EcmaSyntax.Text

theorem size_eq_zero {text : List Char} : size text = 0 ↔ text = [] := by
  cases text with
  | nil => simp
  | cons c rest =>
      have pos := c.utf8Size_pos
      simp only [size_cons, reduceCtorEq, iff_false]
      omega

/-- Every character takes a byte at least. -/
theorem length_le_size (text : List Char) : text.length ≤ size text := by
  induction text with
  | nil => simp
  | cons c rest ih =>
      have pos := c.utf8Size_pos
      simp only [List.length_cons, size_cons]
      omega

/-- Characters of one byte each are as many as their bytes. -/
theorem size_of_single {text : List Char} (single : ∀ c ∈ text, c.utf8Size = 1)
    : size text = text.length := by
  induction text with
  | nil => rfl
  | cons c rest ih =>
      obtain ⟨one, others⟩ := List.forall_mem_cons.mp single
      rw [size_cons, one, ih others, List.length_cons, Nat.add_comm]

/-- The size of a front determines it, since every character takes a byte. -/
theorem append_inj_size {front rest front' rest' : List Char}
    (same : front ++ rest = front' ++ rest') (sizes : size front = size front')
    : front = front' ∧ rest = rest' := by
  induction front generalizing front' with
  | nil =>
      have empty : front' = [] := size_eq_zero.mp sizes.symm
      subst empty
      exact ⟨rfl, same⟩
  | cons c tail ih =>
      cases front' with
      | nil => exact absurd (size_eq_zero.mp sizes) (by simp)
      | cons c' tail' =>
          simp only [List.cons_append, List.cons.injEq] at same
          obtain ⟨rfl, same⟩ := same
          simp only [size_cons, Nat.add_left_cancel_iff] at sizes
          obtain ⟨rfl, rfl⟩ := ih same sizes
          exact ⟨rfl, rfl⟩

/-- Of two fronts of a text the smaller one is a front of the other. -/
theorem exists_append_of_size_le {front rest front' rest' : List Char}
    (same : front ++ rest = front' ++ rest') (sizes : size front ≤ size front')
    : ∃ middle, front' = front ++ middle ∧ rest = middle ++ rest' := by
  rcases List.append_eq_append_iff.mp same with ⟨middle, rfl, rfl⟩ | ⟨middle, rfl, rfl⟩
  · exact ⟨middle, rfl, rfl⟩
  · have empty : middle = [] := size_eq_zero.mp (by simp only [size_append] at sizes; omega)
    subst empty
    exact ⟨[], by simp, by simp⟩

/-- Dropping bytes succeeds exactly if some front of the text has that size. -/
theorem drop?_eq_some {bytes : Nat} {text rest : List Char}
    : drop? bytes text = some rest ↔ ∃ front, text = front ++ rest ∧ size front = bytes := by
  constructor
  · intro found
    fun_induction drop? bytes text with
    | case1 text => exact ⟨[], by simpa using found, rfl⟩
    | case2 => simp at found
    | case3 bytes c tail fits ih =>
        obtain ⟨front, rfl, sized⟩ := ih found
        exact ⟨c :: front, rfl, by simp only [size_cons]; omega⟩
    | case4 => simp at found
  · rintro ⟨front, rfl, rfl⟩
    exact drop?_size_append front rest

/-- Taking bytes succeeds exactly if some front of the text has that size, and gives that front. -/
theorem take?_eq_some {bytes : Nat} {text front : List Char}
    : take? bytes text = some front ↔ ∃ rest, text = front ++ rest ∧ size front = bytes := by
  constructor
  · intro found
    fun_induction take? bytes text generalizing front with
    | case1 text => exact ⟨text, by simp_all⟩
    | case2 => simp at found
    | case3 bytes c tail fits ih =>
        obtain ⟨front', found', rfl⟩ := Option.map_eq_some_iff.mp found
        obtain ⟨rest, rfl, sized⟩ := ih found'
        exact ⟨rest, rfl, by simp only [size_cons]; omega⟩
    | case4 => simp at found
  · rintro ⟨rest, rfl, rfl⟩
    exact take?_size_append front rest

/-- A slice is the middle of a decomposition whose ends are at the two offsets. -/
theorem slice?_eq_some {start stop : Nat} {text middle : List Char}
    : slice? start stop text = some middle
      ↔ ∃ front rest,
          text = front ++ (middle ++ rest) ∧ size front = start ∧ start + size middle = stop := by
  constructor
  · intro found
    unfold slice? at found
    split at found
    next ordered =>
      obtain ⟨tail, dropped, taken⟩ := Option.bind_eq_some_iff.mp found
      obtain ⟨front, rfl, sized⟩ := drop?_eq_some.mp dropped
      obtain ⟨rest, rfl, length⟩ := take?_eq_some.mp taken
      exact ⟨front, rest, rfl, sized, by omega⟩
    next => simp at found
  · rintro ⟨front, rest, rfl, rfl, rfl⟩
    have ordered : size front ≤ size front + size middle := by omega
    simp [slice?, drop?_size_append, take?_size_append]

end EcmaSyntax.Text
