import EcmaSyntax.Proofs.Form.Scalars

/-! Reading a form undoes writing it, on one line or over several. Blanks between the items of a list make
no difference, so both notations are read by the same rules, one for each way in which a list goes on.
-/

namespace EcmaSyntax.Form

-----------------------------------------------------------------------------------------
-- Names
-----------------------------------------------------------------------------------------

/-- The name is a word: not empty, and without blanks, commas and brackets. -/
def IsWord (name : String) : Prop :=
  name ≠ "" ∧ ∀ c ∈ name.toList, isDelimiter c = false

instance (name : String) : Decidable (IsWord name) :=
  decidable_of_iff (name ≠ "" ∧ name.toList.all fun c => !isDelimiter c) (by simp [IsWord])

mutual

/-- Every atom of the form is a word. -/
def WellNamed : Form → Prop
  | atom name => IsWord name
  | list items => AllWellNamed items
  | nil | string _ | number _ => True

def AllWellNamed : List Form → Prop
  | [] => True
  | item :: items => item.WellNamed ∧ AllWellNamed items

end

-----------------------------------------------------------------------------------------
-- Texts that are read back
-----------------------------------------------------------------------------------------

/-- White space in front makes no difference. -/
theorem skipBlanks_append {blanks : List Char} (blank : ∀ c ∈ blanks, Text.isWhiteSpace c)
    (text : List Char)
    : skipBlanks (blanks ++ text) = skipBlanks text :=
  List.dropWhile_append_of_pos blank

theorem skipBlanks_cons {first : Char} (visible : Text.isWhiteSpace first = false)
    (rest : List Char)
    : skipBlanks (first :: rest) = first :: rest := by
  simp [skipBlanks, visible]

/-- Where a word ends, the text is read as the form, and whatever follows is left. -/
structure ReadsBack (form : Form) (text : List Char) : Prop where
  opens : ∃ first rest, text = first :: rest ∧ Text.isWhiteSpace first = false ∧ first ≠ ']'
  reads
    : ∀ bound rest,
        text.length ≤ bound + 1 →
        EndsWord rest →
        ∃ found, readValue (bound + 1) (text ++ rest) = .ok (found, rest) ∧ found.equals form

/-- The text is read as the items up to the end of their list, and whatever follows is left. -/
def ReadsItemsBack (items : List Form) (text : List Char) : Prop :=
  ∀ bound rest,
    text.length ≤ bound + 1 →
    ∃ found, readItems (bound + 1) (text ++ rest) = .ok (found, rest) ∧ equalsItems found items

-----------------------------------------------------------------------------------------
-- Scalars
-----------------------------------------------------------------------------------------

/-- What is no delimiter is neither white space nor a bracket. -/
theorem visible_of_plain {c : Char} (plain : isDelimiter c = false)
    : Text.isWhiteSpace c = false ∧ c ≠ '[' ∧ c ≠ ']' := by
  simp only [isDelimiter, Bool.or_eq_false_iff, decide_eq_false_iff_not] at plain
  exact ⟨plain.1.1.1, plain.1.2, plain.2⟩

/-- A word that begins no atom and no string is read as `nil` or as a number. -/
theorem readValue_word {bound : Nat} {word rest : List Char} (present : word ≠ [])
    (plain : ∀ c ∈ word, IsPlain c) (ends : EndsWord rest)
    : readValue (bound + 1) (word ++ rest)
      = if word = "nil".toList then
          .ok (nil, rest)
        else
          match numberOfWord? word with
          | some value => .ok (number value, rest)
          | none => .error ⟨.missingValue, word ++ rest⟩ := by
  obtain ⟨word_eq, after_eq⟩ := wordOf_append (fun c member => (plain c member).1) ends
  obtain ⟨first, word, rfl⟩ := List.exists_cons_of_ne_nil present
  obtain ⟨delimits, noColon, noQuote, noOther⟩ := plain first List.mem_cons_self
  obtain ⟨visible, noOpen, _⟩ := visible_of_plain delimits
  rw [List.cons_append] at word_eq after_eq ⊢
  rw [readValue, skipBlanks_cons visible]
  split
  · rename_i same
    cases same
  · rename_i same
    exact absurd (List.cons.inj same).1 noOpen
  · rename_i same
    exact absurd (List.cons.inj same).1 noColon
  · rename_i same
    exact absurd (List.cons.inj same).1 noQuote
  · rename_i same
    exact absurd (List.cons.inj same).1 noOther
  · cases found : numberOfWord? (first :: word) <;> simp only [word_eq, after_eq, found]

/-- A value is read back if it is one word that is read where words end. -/
theorem readsBack_of_word {form : Form} {word : List Char} (present : word ≠ [])
    (plain : ∀ c ∈ word, IsPlain c)
    (reads
      : ∀ bound rest,
          EndsWord rest →
          ∃ found, readValue (bound + 1) (word ++ rest) = .ok (found, rest) ∧ found.equals form)
    : ReadsBack form word where
  opens := by
    obtain ⟨first, word, rfl⟩ := List.exists_cons_of_ne_nil present
    obtain ⟨visible, _, noClose⟩ := visible_of_plain (plain first List.mem_cons_self).1
    exact ⟨first, word, rfl, visible, noClose⟩
  reads bound rest _ ends := reads bound rest ends

theorem readsBack_nil : ReadsBack nil nil.write := by
  have plain : ∀ c ∈ "nil".toList, IsPlain c := isPlain_of_all (by decide)
  refine readsBack_of_word (by decide) plain fun bound rest ends => ⟨nil, ?_, rfl⟩
  exact (readValue_word (by decide) plain ends).trans (if_pos rfl)

/-- A number is read back from its shortest text, as an equal one. -/
theorem readsBack_number (value : Number) : ReadsBack (number value) (number value).write := by
  have reads := numberOfWord?_text value
  have plain := isPlain_text value
  have present : value.text ≠ [] := by
    intro none
    rw [none] at reads
    cases reads
  have notNil : value.text ≠ "nil".toList := by
    intro same
    rw [same] at reads
    cases reads
  rw [write]
  refine readsBack_of_word present plain fun bound rest ends => ?_
  refine ⟨number value.written, ?_, value.equals_written⟩
  rw [readValue_word present plain ends, if_neg notNil, reads]

/-- An atom is read back if its name is a word. -/
theorem readsBack_atom {name : String} (isWord : IsWord name)
    : ReadsBack (atom name) (atom name).write where
  opens := ⟨':', name.toList, rfl, by decide, by decide⟩
  reads bound rest _ ends := by
    obtain ⟨word, after⟩ := wordOf_append isWord.2 ends
    refine ⟨atom name, ?_, by simp [equals]⟩
    rw [write, List.cons_append, readValue, skipBlanks_cons (by decide)]
    simp [word, after, isWord.1]

/-- A string is read back through its escapes. -/
theorem readsBack_string (value : String) : ReadsBack (string value) (string value).write where
  opens := ⟨'"', _, rfl, by decide, by decide⟩
  reads bound rest _ _ := by
    refine ⟨string value, ?_, by simp [equals]⟩
    rw [write, quoted, List.cons_append, readValue, skipBlanks_cons (by decide),
      List.append_assoc, List.singleton_append]
    simp [quotedUnits_quoted, Except.map, Text.decodeUnits_encodeUnits]

-----------------------------------------------------------------------------------------
-- Lists
-----------------------------------------------------------------------------------------

/-- A list is read back if its items are up to the bracket that closes them. -/
theorem ReadsItemsBack.list {items : List Form} {text : List Char}
    (reads : ReadsItemsBack items text) (present : text ≠ [])
    : ReadsBack (list items) ('[' :: text) where
  opens := ⟨'[', text, rfl, by decide, by decide⟩
  reads bound rest enough _ := by
    have positive := List.length_pos_iff.mpr present
    rw [List.length_cons] at enough
    obtain ⟨bound, rfl⟩ := Nat.exists_eq_succ_of_ne_zero (show bound ≠ 0 by omega)
    obtain ⟨found, read, equal⟩ := reads bound rest (by omega)
    refine ⟨.list found, ?_, equal⟩
    rw [List.cons_append, readValue, skipBlanks_cons (by decide)]
    simp [read, Except.map]

/-- Blanks may stand before the items and before the end of their list. -/
theorem ReadsItemsBack.blanks {items : List Form} {text blanks : List Char}
    (reads : ReadsItemsBack items text) (blank : ∀ c ∈ blanks, Text.isWhiteSpace c)
    : ReadsItemsBack items (blanks ++ text) := by
  intro bound rest enough
  rw [List.length_append] at enough
  obtain ⟨found, read, equal⟩ := reads bound rest (by omega)
  refine ⟨found, ?_, equal⟩
  rw [readItems] at read ⊢
  rw [List.append_assoc, skipBlanks_append blank]
  exact read

/-- White space in front of items makes no difference. -/
theorem ReadsItemsBack.blank {items : List Form} {text : List Char} {c : Char}
    (reads : ReadsItemsBack items text) (blank : Text.isWhiteSpace c)
    : ReadsItemsBack items (c :: text) :=
  reads.blanks (List.forall_mem_singleton.mpr blank)

theorem readItems_end (bound : Nat) (rest : List Char)
    : readItems (bound + 1) (']' :: rest) = .ok ([], rest) := by
  rw [readItems, skipBlanks_cons (by decide)]
  rfl

theorem readsItemsBack_end : ReadsItemsBack [] [']'] :=
  fun bound rest _ => ⟨[], readItems_end bound rest, rfl⟩

/-- After an item the list goes on behind a comma, or at its end. -/
theorem readItems_item {bound : Nat} {first : Char} {text after rest : List Char} {item : Form}
    (visible : Text.isWhiteSpace first = false) (goesOn : first ≠ ']')
    (read : readValue bound (first :: text) = .ok (item, after))
    (onward : skipBlanks after = ',' :: rest ∨ ∃ more, skipBlanks after = ']' :: more ∧ rest = ']' :: more)
    : readItems (bound + 1) (first :: text)
      = (readItems bound rest).map fun (items, rest) => (item :: items, rest) := by
  rw [readItems, skipBlanks_cons visible]
  split
  · rename_i same
    exact absurd (List.cons.inj same).1 goesOn
  · rw [read]
    rcases onward with comma | ⟨more, close, rfl⟩
    · simp only [Except.bind, bind, comma]
      cases readItems bound rest <;> rfl
    · simp only [Except.bind, bind, close]
      cases readItems bound (']' :: more) <;> rfl

/-- Blanks and what ends a word end one. -/
theorem endsWord_of_blanks {blanks : List Char} {mark : Char} (blank : ∀ c ∈ blanks, Text.isWhiteSpace c)
    (delimits : isDelimiter mark = true) (rest : List Char)
    : EndsWord (blanks ++ mark :: rest) := by
  cases blanks with
  | nil =>
      rintro c ⟨⟩
      exact delimits
  | cons c blanks =>
      rintro _ ⟨⟩
      simp [isDelimiter, blank c List.mem_cons_self]

/-- An item after which the list ends. -/
theorem ReadsBack.last {item : Form} {text blanks : List Char} (reads : ReadsBack item text)
    (blank : ∀ c ∈ blanks, Text.isWhiteSpace c)
    : ReadsItemsBack [item] (text ++ (blanks ++ [']'])) := by
  intro bound rest enough
  obtain ⟨first, inner, rfl, visible, goesOn⟩ := reads.opens
  simp only [List.length_append, List.length_cons] at enough
  obtain ⟨bound, rfl⟩ := Nat.exists_eq_succ_of_ne_zero (show bound ≠ 0 by omega)
  have ends := endsWord_of_blanks blank (show isDelimiter ']' = true by decide) rest
  obtain ⟨found, read, equal⟩ := reads.reads bound (blanks ++ ']' :: rest) (by simp; omega) ends
  have close : skipBlanks (blanks ++ ']' :: rest) = ']' :: rest := by
    rw [skipBlanks_append blank, skipBlanks_cons (by decide)]
  refine ⟨[found], ?_, by simp [equalsItems, equal]⟩
  have step := readItems_item visible goesOn read (.inr ⟨rest, close, rfl⟩)
  rw [readItems_end] at step
  simpa [Except.map] using step

/-- An item with a comma after it, which may stand behind blanks. -/
theorem ReadsBack.comma {item : Form} {items : List Form} {text blanks more : List Char}
    (reads : ReadsBack item text) (blank : ∀ c ∈ blanks, Text.isWhiteSpace c)
    (rest : ReadsItemsBack items more)
    : ReadsItemsBack (item :: items) (text ++ (blanks ++ ',' :: more)) := by
  intro bound after enough
  obtain ⟨first, inner, rfl, visible, goesOn⟩ := reads.opens
  simp only [List.length_append, List.length_cons] at enough
  obtain ⟨bound, rfl⟩ := Nat.exists_eq_succ_of_ne_zero (show bound ≠ 0 by omega)
  have ends := endsWord_of_blanks blank (show isDelimiter ',' = true by decide) (more ++ after)
  obtain ⟨found, read, equal⟩ := reads.reads bound _ (by simp; omega) ends
  obtain ⟨others, readOthers, equalOthers⟩ := rest bound after (by omega)
  have goes : skipBlanks (blanks ++ ',' :: (more ++ after)) = ',' :: (more ++ after) := by
    rw [skipBlanks_append blank, skipBlanks_cons (by decide)]
  refine ⟨found :: others, ?_, by simp [equalsItems, equal, equalOthers]⟩
  have step := readItems_item visible goesOn read (.inl goes)
  rw [readOthers] at step
  simpa [Except.map] using step

/-- An item with a comma right after it. -/
theorem ReadsBack.more {item : Form} {items : List Form} {text more : List Char}
    (reads : ReadsBack item text) (rest : ReadsItemsBack items more)
    : ReadsItemsBack (item :: items) (text ++ ',' :: more) :=
  @ReadsBack.comma item items text [] more reads (by simp) rest

-----------------------------------------------------------------------------------------
-- Both notations
-----------------------------------------------------------------------------------------

/-- Indentation is white space, a line break among it. -/
theorem isWhiteSpace_of_mem_indentation {depth : Nat} {c : Char} (member : c ∈ indentation depth)
    : Text.isWhiteSpace c := by
  rw [List.eq_of_mem_replicate member]
  decide

mutual

/-- What is written on one line is read back. -/
theorem readsBack_write (form : Form) (named : form.WellNamed) : ReadsBack form form.write := by
  cases form with
  | nil => exact readsBack_nil
  | atom name => exact readsBack_atom named
  | string value => exact readsBack_string value
  | number value => exact readsBack_number value
  | list items =>
      have reads := readsItemsBack_write items named
      rw [write]
      exact reads.list (by simp)

/-- Items are read back from one line, by recursion on the list. -/
theorem readsItemsBack_write (items : List Form) (named : AllWellNamed items)
    : ReadsItemsBack items (writeItems items ++ [']']) := by
  match items, named with
  | [], _ => exact readsItemsBack_end
  | [item], named => exact @ReadsBack.last item _ [] (readsBack_write item named.1) (by simp)
  | item :: next :: items, named =>
      have rest := readsItemsBack_write (next :: items) named.2
      have blanks := rest.blank (show Text.isWhiteSpace ' ' by decide)
      rw [writeItems, List.append_assoc]
      exact (readsBack_write item named.1).more blanks

end

mutual

/-- What is written over several lines is read back. -/
theorem readsBack_prettyAt (depth : Nat) (form : Form) (named : form.WellNamed)
    : ReadsBack form (prettyAt depth form) := by
  cases form with
  | nil | atom | string | number =>
      rw [prettyAt]
      · exact readsBack_write _ named
      · exact fun items same => Form.noConfusion same
  | list items =>
      rw [prettyAt]
      split
      · exact readsBack_write _ named
      · have reads := readsItemsBack_pretty (depth + 1) items named (indentation depth)
          fun c member => isWhiteSpace_of_mem_indentation member
        have newline := reads.blank (show Text.isWhiteSpace '\n' by decide)
        exact newline.list (by simp)

/-- Items are read back from lines of their own, whatever blanks stand in front of the bracket. -/
theorem readsItemsBack_pretty (depth : Nat) (items : List Form) (named : AllWellNamed items)
    (blanks : List Char) (blank : ∀ c ∈ blanks, Text.isWhiteSpace c)
    : ReadsItemsBack items (prettyItems depth items ++ blanks ++ [']']) := by
  have indents : ∀ c ∈ indentation depth, Text.isWhiteSpace c :=
    fun c member => isWhiteSpace_of_mem_indentation member
  match items, named with
  | [], _ => exact readsItemsBack_end.blanks blank
  | [item], named =>
      have after : ∀ c ∈ '\n' :: blanks, Text.isWhiteSpace c :=
        List.forall_mem_cons.mpr ⟨by decide, blank⟩
      have last := (readsBack_prettyAt depth item named.1).last after
      simpa [prettyItems] using last.blanks indents
  | item :: next :: items, named =>
      have rest := readsItemsBack_pretty depth (next :: items) named.2 blanks blank
      have newline := rest.blank (show Text.isWhiteSpace '\n' by decide)
      have more := (readsBack_prettyAt depth item named.1).more newline
      simpa [prettyItems] using more.blanks indents

end

/-- The text as a whole is read as a form equal to the given one. -/
def ReadsAs (text : List Char) (form : Form) : Prop :=
  ∃ found, read text = .ok found ∧ found.equals form

/-- What is read back in front of anything is read back alone. -/
theorem ReadsBack.readsAs {form : Form} {text : List Char} (reads : ReadsBack form text)
    : ReadsAs text form := by
  obtain ⟨found, ran, equal⟩ := reads.reads (2 * text.length + 1) [] (by omega) (by simp [EndsWord])
  refine ⟨found, ?_, equal⟩
  rw [List.append_nil] at ran
  simp [Form.read, ran, skipBlanks, Except.bind, bind, Except.mapError, pure, Except.pure]

-----------------------------------------------------------------------------------------
-- Forms that were read
-----------------------------------------------------------------------------------------

/-- What is cut off as a word is one. -/
theorem isWord_wordOf {text : List Char} (present : (wordOf text).isEmpty = false)
    : IsWord (String.ofList (wordOf text)) := by
  refine ⟨?_, ?_⟩
  · intro none
    have empty := congrArg String.toList none
    simp at empty
    simp [empty] at present
  · intro c member
    rw [String.toList_ofList] at member
    simpa using List.mem_takeWhile_imp member

/-- A result that a map gives is the image of one. -/
theorem exists_of_map_eq_ok {α β : Type} {outcome : Except ReadStop α} {f : α → β} {result : β}
    (mapped : outcome.map f = .ok result)
    : ∃ value, outcome = .ok value ∧ f value = result := by
  cases outcome with
  | error stop => cases mapped
  | ok value => exact ⟨value, rfl, Except.ok.inj mapped⟩

/-- A value that was read has words for atoms, if the items in it have. -/
theorem wellNamed_of_readValue {bound : Nat} {text rest : List Char} {form : Form}
    (items : ∀ text items rest, readItems bound text = .ok (items, rest) → AllWellNamed items)
    (ran : readValue (bound + 1) text = .ok (form, rest))
    : form.WellNamed := by
  rw [readValue] at ran
  split at ran
  · cases ran
  · obtain ⟨⟨found, after⟩, read, same⟩ := exists_of_map_eq_ok ran
    obtain ⟨rfl, _⟩ := Prod.mk.inj same
    exact items _ _ _ read
  · split at ran
    · cases ran
    · rename_i present
      obtain ⟨rfl, _⟩ := Prod.mk.inj (Except.ok.inj ran)
      exact isWord_wordOf (by simpa using present)
  · obtain ⟨found, _, same⟩ := exists_of_map_eq_ok ran
    obtain ⟨rfl, _⟩ := Prod.mk.inj same
    trivial
  · obtain ⟨found, _, same⟩ := exists_of_map_eq_ok ran
    obtain ⟨rfl, _⟩ := Prod.mk.inj same
    trivial
  · split at ran
    · obtain ⟨rfl, _⟩ := Prod.mk.inj (Except.ok.inj ran)
      trivial
    · split at ran
      · obtain ⟨rfl, _⟩ := Prod.mk.inj (Except.ok.inj ran)
        trivial
      · cases ran

theorem bind_eq_ok {α β : Type} {outcome : Except ReadStop α} {next : α → Except ReadStop β}
    {result : β}
    : (outcome >>= next) = .ok result ↔ ∃ value, outcome = .ok value ∧ next value = .ok result := by
  cases outcome with
  | error stop => simp [bind, Except.bind]
  | ok value => simp [bind, Except.bind]

/-- Items that were read have words for atoms, if the values in them have. -/
theorem allWellNamed_of_readItems {bound : Nat} {text rest : List Char} {items : List Form}
    (value : ∀ text form rest, readValue bound text = .ok (form, rest) → form.WellNamed)
    (others : ∀ text items rest, readItems bound text = .ok (items, rest) → AllWellNamed items)
    (ran : readItems (bound + 1) text = .ok (items, rest))
    : AllWellNamed items := by
  rw [readItems] at ran
  split at ran
  · obtain ⟨rfl, _⟩ := Prod.mk.inj (Except.ok.inj ran)
    trivial
  · obtain ⟨⟨item, after⟩, read, ran⟩ := bind_eq_ok.mp ran
    have rest_of {start : List Char}
        (ran : (readItems bound start >>= fun (items, rest) => pure (item :: items, rest))
          = .ok (items, rest))
        : AllWellNamed items := by
      obtain ⟨⟨found, last⟩, readOthers, same⟩ := bind_eq_ok.mp ran
      obtain ⟨rfl, _⟩ := Prod.mk.inj (Except.ok.inj same)
      exact ⟨value _ _ _ read, others _ _ _ readOthers⟩
    dsimp only at ran
    split at ran
    · exact rest_of ran
    · exact rest_of ran
    · cases ran
    · cases ran

/-- Every atom that is read is a word. -/
theorem wellNamed_of_bound (bound : Nat)
    : (∀ text form rest, readValue bound text = .ok (form, rest) → form.WellNamed)
      ∧ ∀ text items rest, readItems bound text = .ok (items, rest) → AllWellNamed items := by
  induction bound with
  | zero => exact ⟨fun _ _ _ ran => (nomatch ran), fun _ _ _ ran => (nomatch ran)⟩
  | succ bound ih =>
      exact ⟨fun _ _ _ ran => wellNamed_of_readValue ih.2 ran,
        fun _ _ _ ran => allWellNamed_of_readItems ih.1 ih.2 ran⟩

/-- Whatever is read has words for atoms, so writing it is undone by reading. -/
theorem wellNamed_of_read {text : List Char} {form : Form} (ran : read text = .ok form)
    : form.WellNamed := by
  unfold read at ran
  cases outcome : readValue (2 * text.length + 2) text with
  | error stop =>
      rw [outcome] at ran
      cases ran
  | ok value =>
      obtain ⟨found, rest⟩ := value
      simp only [outcome, bind, Except.bind] at ran
      split at ran
      · obtain rfl := Except.ok.inj ran
        exact (wellNamed_of_bound _).1 _ _ _ outcome
      · cases ran

-----------------------------------------------------------------------------------------
-- Reading undoes writing
-----------------------------------------------------------------------------------------

/-- A form with words for atoms is read back from both notations. -/
theorem WellNamed.readsAs {form : Form} (named : form.WellNamed)
    : ReadsAs form.write form ∧ ReadsAs form.pretty form :=
  ⟨(readsBack_write form named).readsAs, (readsBack_prettyAt 0 form named).readsAs⟩

/-- Both notations of a form whose atoms are words are read as the form, and whatever was read is such
a form.
-/
theorem notations_read_back
    : (∀ form : Form, form.WellNamed → ReadsAs form.write form ∧ ReadsAs form.pretty form)
      ∧ ∀ text form,
          read text = .ok form →
          form.WellNamed ∧ ReadsAs form.write form ∧ ReadsAs form.pretty form := by
  refine ⟨fun form named => named.readsAs, fun text form ran => ?_⟩
  have named := wellNamed_of_read ran
  exact ⟨named, named.readsAs⟩

/-- The sign of zero is lost, the value is not. -/
theorem notations_read_back_zero
    : ∃ form : Form,
        form.WellNamed
        ∧ form.write = "[:a, 0, \"\\u0007\"]".toList
        ∧ ReadsAs "[:a, 0, \"\\u0007\"]".toList form
        ∧ ReadsAs form.pretty form := by
  have isWord : IsWord "a" := by decide
  have named
      : (list [atom "a", number (.signed true Magnitude.zero), string "\u0007"]).WellNamed :=
    ⟨isWord, trivial, trivial, trivial⟩
  have written
      : (list [atom "a", number (.signed true Magnitude.zero), string "\u0007"]).write
        = "[:a, 0, \"\\u0007\"]".toList := by
    decide +kernel
  obtain ⟨line, lines⟩ := notations_read_back.1 _ named
  exact ⟨_, named, written, written ▸ line, lines⟩

end EcmaSyntax.Form
