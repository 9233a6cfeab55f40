import EcmaSyntax.Token.Spelling
import Mathlib.Data.List.Nodup

/-! The punctuator at the beginning of a text is the longest spelling of the table that opens the
text. Every front of a spelling is a spelling, so one more character tells whether a longer one opens
the text. A reserved word is found by all of its spelling.
-/

namespace EcmaSyntax

/-- The first of the longest of some spellings. -/
def longestOf (best : Option (Kind × String)) (entries : List (Kind × String))
    : Option (Kind × String) :=
  entries.foldl (fun best entry => some (best.elim entry fun best => longerSpelling best entry)) best

theorem longerSpelling_mem (first second : Kind × String)
    : longerSpelling first second = first ∨ longerSpelling first second = second := by
  unfold longerSpelling
  split <;> simp

theorem length_le_longerSpelling (first second : Kind × String)
    : first.2.length ≤ (longerSpelling first second).2.length
      ∧ second.2.length ≤ (longerSpelling first second).2.length := by
  unfold longerSpelling
  split <;> omega

/-- The longest of some spellings is one of them, and none is longer. -/
theorem longestOf_some (best : Kind × String) (entries : List (Kind × String))
    : ∃ longest ∈ best :: entries,
        longestOf (some best) entries = some longest
        ∧ ∀ entry ∈ best :: entries, entry.2.length ≤ longest.2.length := by
  induction entries generalizing best with
  | nil => exact ⟨best, by simp, rfl, by simp⟩
  | cons entry rest ih =>
      obtain ⟨longest, member, found, bound⟩ := ih (longerSpelling best entry)
      have next := bound _ List.mem_cons_self
      have lengths := length_le_longerSpelling best entry
      refine ⟨longest, ?_, found, ?_⟩
      · rcases List.mem_cons.mp member with rfl | later
        · rcases longerSpelling_mem best entry with same | same <;> simp [same]
        · simp [later]
      · intro other among
        simp only [List.mem_cons] at among
        rcases among with rfl | rfl | later
        · omega
        · omega
        · exact bound other (List.mem_cons_of_mem _ later)

/-- No two punctuators have the same spelling. -/
theorem spellings_nodup : (punctuators.map Prod.snd).Nodup := by decide

/-- Every front of the spelling of a punctuator is the spelling of a punctuator. -/
theorem spellings_closed
    : ∀ entry ∈ punctuators,
        ∀ count < entry.2.toList.length,
          count = 0 ∨ ∃ shorter ∈ punctuators, shorter.2.toList = entry.2.toList.take count := by
  decide

theorem spelling_ne_nil : ∀ entry ∈ punctuators, entry.2.toList ≠ [] := by decide

/-- A kind is listed with its spelling. -/
theorem mem_of_lookup {kind : Kind} {spelling : String} {entries : List (Kind × String)}
    (found : entries.lookup kind = some spelling)
    : (kind, spelling) ∈ entries := by
  obtain ⟨front, rest, rfl, _⟩ := List.lookup_eq_some_iff.mp found
  simp

/-- A reserved word is found by its spelling, which no other one has. -/
theorem wordKind?_of_mem {kind : Kind} {spelling : String}
    (listed : (kind, spelling) ∈ reservedWords)
    : wordKind? spelling.toList = some kind := by
  have nodup : (reservedWords.map Prod.snd).Nodup := by decide
  have present : (reservedWords.find? fun entry => entry.2.toList = spelling.toList).isSome :=
    List.find?_isSome.mpr ⟨_, listed, decide_eq_true rfl⟩
  obtain ⟨entry, found⟩ := Option.isSome_iff_exists.mp present
  have same : entry.2.toList = spelling.toList := by simpa using List.find?_some found
  have entry_eq : entry = (kind, spelling) :=
    List.inj_on_of_nodup_map nodup (List.mem_of_find?_eq_some found) listed
      (String.toList_injective same)
  rw [wordKind?, found, entry_eq]
  rfl

/-- A punctuator, the longest one that opens the text. -/
structure OpensLongest (text : List Char) (entry : Kind × String) : Prop where
  member : entry ∈ punctuators
  opens : entry.2.toList <+: text
  longest : ∀ other ∈ punctuators, other.2.toList <+: text → other.2.length ≤ entry.2.length

/-- There is at most one longest punctuator: two of one length are the same front of the text. -/
theorem OpensLongest.unique {text : List Char} {first second : Kind × String}
    (left : OpensLongest text first) (right : OpensLongest text second)
    : first = second := by
  have lengths : first.2.toList.length = second.2.toList.length := by
    have le := right.longest first left.member left.opens
    have ge := left.longest second right.member right.opens
    simp only [String.length_toList]
    omega
  have same := List.IsPrefix.eq_of_length (List.prefix_of_prefix_length_le left.opens right.opens
    (Nat.le_of_eq lengths)) lengths
  exact List.inj_on_of_nodup_map spellings_nodup left.member right.member
    (String.toList_injective same)

/-- The search of the table takes the longest of the spellings that open the text. -/
theorem longestPunctuator?_eq_longestOf (text : List Char)
    : longestPunctuator? text
      = longestOf none (punctuators.filter fun entry => entry.2.toList.isPrefixOf text) :=
  rfl

theorem mem_opening {text : List Char} {entry : Kind × String}
    : entry ∈ punctuators.filter (fun entry => entry.2.toList.isPrefixOf text)
      ↔ entry ∈ punctuators ∧ entry.2.toList <+: text := by
  simp

/-- A text that some punctuator opens has a longest one. -/
theorem exists_longestPunctuator? {text : List Char} {entry : Kind × String}
    (member : entry ∈ punctuators) (opens : entry.2.toList <+: text)
    : ∃ longest, longestPunctuator? text = some longest := by
  cases entries : punctuators.filter (fun entry => entry.2.toList.isPrefixOf text) with
  | nil =>
      have among := mem_opening.mpr ⟨member, opens⟩
      rw [entries] at among
      cases among
  | cons first rest =>
      obtain ⟨longest, _, found, _⟩ := longestOf_some first rest
      exact ⟨longest, by rw [longestPunctuator?_eq_longestOf, entries]; exact found⟩

/-- The search of the table finds exactly the longest punctuator that opens the text. -/
theorem longestPunctuator?_eq_some {text : List Char} {entry : Kind × String}
    : longestPunctuator? text = some entry ↔ OpensLongest text entry := by
  have complete {entries} (same : punctuators.filter (fun entry => entry.2.toList.isPrefixOf text)
      = entries) {longest} (found : longestOf none entries = some longest)
      : OpensLongest text longest := by
    cases entries with
    | nil => cases found
    | cons first rest =>
        obtain ⟨longest', member, found', bound⟩ := longestOf_some first rest
        obtain rfl : longest' = longest := Option.some.inj (found'.symm.trans found)
        rw [← same] at member bound
        have within := mem_opening.mp member
        exact ⟨within.1, within.2, fun other among opens =>
          bound other (mem_opening.mpr ⟨among, opens⟩)⟩
  constructor
  · exact complete rfl
  · intro opens
    obtain ⟨longest, found⟩ := exists_longestPunctuator? opens.member opens.opens
    exact (complete rfl found).unique opens ▸ found

/-- The longest punctuator stays the longest one if the character after it stays the same, or is none
that any punctuator has.
-/
theorem OpensLongest.replace {entry : Kind × String} {after other : List Char}
    (opens : OpensLongest (entry.2.toList ++ after) entry)
    (next
      : other.head? = after.head?
        ∨ ∀ c, other.head? = some c → ∀ entry ∈ punctuators, c ∉ entry.2.toList)
    : OpensLongest (entry.2.toList ++ other) entry := by
  refine ⟨opens.member, List.prefix_append .., ?_⟩
  intro longer member isPrefix
  by_contra exceeds
  simp only [← String.length_toList, Nat.not_le] at exceeds
  obtain ⟨tail, spelled⟩ := List.prefix_of_prefix_length_le (List.prefix_append _ other) isPrefix
    (Nat.le_of_lt exceeds)
  obtain ⟨c, tail', rfl⟩ : ∃ c tail', tail = c :: tail' :=
    List.exists_cons_of_ne_nil (by rintro rfl; rw [← spelled] at exceeds; simp at exceeds)
  have head : other.head? = some c := by
    rw [← spelled, List.prefix_append_right_inj] at isPrefix
    obtain ⟨rest, rfl⟩ := isPrefix
    rfl
  rcases next with same | strange
  · -- The spelling with one more character is a punctuator that opened the old text already.
    obtain ⟨after', rfl⟩ : ∃ after', after = c :: after' := by
      cases after with
      | nil => rw [head] at same; cases same
      | cons d rest => rw [head] at same; cases same; exact ⟨rest, rfl⟩
    obtain ⟨middle, among, same'⟩
        : ∃ middle ∈ punctuators, middle.2.toList = entry.2.toList ++ [c] := by
      cases tail' with
      | nil => exact ⟨longer, member, spelled.symm⟩
      | cons d rest =>
          have shorter := spellings_closed longer member (entry.2.toList.length + 1)
            (by rw [← spelled]; simp)
          rcases shorter with zero | ⟨middle, among, same'⟩
          · simp at zero
          · refine ⟨middle, among, ?_⟩
            rw [same', ← spelled, List.take_append, List.take_of_length_le (by omega)]
            simp
    have bound := opens.longest middle among (by rw [same']; exact ⟨after', by simp⟩)
    simp only [← String.length_toList, same', List.length_append, List.length_singleton] at bound
    omega
  · exact strange c head longer member (by rw [← spelled]; simp)

end EcmaSyntax
