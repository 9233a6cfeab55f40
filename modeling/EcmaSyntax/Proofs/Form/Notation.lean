import EcmaSyntax.Proofs.Form.ReadBack
import EcmaSyntax.Proofs.Form.Spelling

/-! The notation of forms as a grammar, and the reader as its recognizer. Whatever the grammar derives is
read, since the rules for reading a form back follow it; whatever is read was derived, and whatever is not
fails at a place of the text, by induction on the bound of the reader.
-/

namespace EcmaSyntax

open Form

namespace Spelling

/-- White space only, or nothing. -/
def IsBlank (text : List Char) : Prop :=
  ∀ c ∈ text, Text.isWhiteSpace c

/-- What may stand between the quotes of a string. -/
inductive IsQuoted (spelling : Spelling) (quote : Char) : List Char → Prop
  | empty : IsQuoted spelling quote []
  | plain {c : Char} {rest : List Char} (noQuote : c ≠ quote) (noEscape : c ≠ '\\')
    (inner : IsQuoted spelling quote rest)
    : IsQuoted spelling quote (c :: rest)
  | code {digits rest : List Char} (isCode : spelling.IsCode digits)
    (inner : IsQuoted spelling quote rest)
    : IsQuoted spelling quote ('\\' :: 'u' :: (digits ++ rest))
  | escape {c : Char} {rest : List Char} (short : c ≠ 'u') (inner : IsQuoted spelling quote rest)
    : IsQuoted spelling quote ('\\' :: c :: rest)

mutual

/-- A value. Words need no rule of their own: behind a value there is a blank, a comma, a bracket or
nothing.
-/
inductive IsValue (spelling : Spelling) : List Char → Prop
  | nil : IsValue spelling "nil".toList
  | atom {name : List Char} (present : name ≠ []) (plain : ∀ c ∈ name, isDelimiter c = false)
    : IsValue spelling (':' :: name)
  | string {quote : Char} {body : List Char} (quotes : quote = '"' ∨ quote = '\'')
    (inner : IsQuoted spelling quote body)
    : IsValue spelling (quote :: (body ++ [quote]))
  | number {word : List Char} (isNumeral : spelling.IsNumeral word) : IsValue spelling word
  | list {items : List Char} (inner : IsItems spelling items) : IsValue spelling ('[' :: (items ++ [']']))

/-- The items of a list. The last one may have a comma behind it. -/
inductive IsItems (spelling : Spelling) : List Char → Prop
  | none {blanks : List Char} (isBlank : IsBlank blanks) : IsItems spelling blanks
  | last {before item after : List Char} (isBefore : IsBlank before) (isItem : IsValue spelling item)
    (isAfter : IsBlank after)
    : IsItems spelling (before ++ (item ++ after))
  | more {before item after rest : List Char} (isBefore : IsBlank before) (isItem : IsValue spelling item)
    (isAfter : IsBlank after) (others : IsItems spelling rest)
    : IsItems spelling (before ++ (item ++ (after ++ ',' :: rest)))

end

/-- A value with blanks around it. -/
def IsText (spelling : Spelling) (text : List Char) : Prop :=
  ∃ before value after,
    text = before ++ (value ++ after) ∧ IsBlank before ∧ spelling.IsValue value ∧ IsBlank after

-----------------------------------------------------------------------------------------
-- More spellings, more texts
-----------------------------------------------------------------------------------------

section Extension

variable {spelling other : Spelling} {text : List Char}

/-- What stands between quotes does so with more codes. -/
theorem IsQuoted.extend {quote : Char} (codes : ∀ code, spelling.IsCode code → other.IsCode code)
    (isQuoted : spelling.IsQuoted quote text)
    : other.IsQuoted quote text := by
  induction isQuoted with
  | empty => exact .empty
  | plain noQuote noEscape _ ih => exact .plain noQuote noEscape ih
  | code isCode _ ih => exact .code (codes _ isCode) ih
  | escape short _ ih => exact .escape short ih

mutual

/-- A value is one with more codes and more numerals, by recursion on its derivation. -/
theorem IsValue.extend {text : List Char} (codes : ∀ code, spelling.IsCode code → other.IsCode code)
    (numerals : ∀ word, spelling.IsNumeral word → other.IsNumeral word)
    : spelling.IsValue text → other.IsValue text
  | .nil => .nil
  | .atom present plain => .atom present plain
  | .string quotes inner => .string quotes (inner.extend codes)
  | .number isNumeral => .number (numerals _ isNumeral)
  | .list inner => .list (inner.extend codes numerals)

theorem IsItems.extend {text : List Char} (codes : ∀ code, spelling.IsCode code → other.IsCode code)
    (numerals : ∀ word, spelling.IsNumeral word → other.IsNumeral word)
    : spelling.IsItems text → other.IsItems text
  | .none isBlank => .none isBlank
  | .last isBefore isItem isAfter => .last isBefore (isItem.extend codes numerals) isAfter
  | .more isBefore isItem isAfter others =>
      .more isBefore (isItem.extend codes numerals) isAfter (others.extend codes numerals)

end

end Extension

/-- A text of the notation is one with any of the spellings that are read. -/
theorem lenient_of_strict {text : List Char} (isText : strict.IsText text) : lenient.IsText text := by
  obtain ⟨before, value, after, same, isBefore, isValue, isAfter⟩ := isText
  have extended : lenient.IsValue value :=
    isValue.extend (fun _ isCode => .inl isCode) fun _ isNumeral => .inl isNumeral
  exact ⟨before, value, after, same, isBefore, extended, isAfter⟩

end Spelling

-----------------------------------------------------------------------------------------
-- What the grammar derives is read
-----------------------------------------------------------------------------------------

namespace Form

open Spelling

variable {text : List Char}

/-- What the grammar has between quotes is read as units, whatever follows the quote. -/
theorem quotedUnits_of_isQuoted {quote : Char} (quotes : quote = '"' ∨ quote = '\'')
    (isQuoted : lenient.IsQuoted quote text)
    : ∃ units, ∀ rest, quotedUnits quote 0 (text ++ quote :: rest) = .ok (units, rest) := by
  have noEscape : '\\' ≠ quote := by rcases quotes with rfl | rfl <;> decide
  induction isQuoted with
  | empty =>
      refine ⟨[], fun rest => ?_⟩
      rw [List.nil_append, quotedUnits.eq_def]
      exact if_pos rfl
  | @plain c _ noQuote isPlain _ ih =>
      obtain ⟨units, read⟩ := ih
      refine ⟨Text.unitsOfChar c ++ units, fun rest => ?_⟩
      rw [List.cons_append, quotedUnits.eq_def]
      simp only [noQuote, isPlain, if_false, read]
      rfl
  | @code digits tail isCode _ ih =>
      obtain ⟨units, read⟩ := ih
      obtain ⟨value, found⟩ := Text.codeOf?_of_isCode isCode
      refine ⟨value.toUInt16 :: units, fun rest => ?_⟩
      have skipped := quotedUnits_skip quote ('u' :: digits) (tail ++ quote :: rest)
      rw [List.length_cons, List.cons_append, Nat.add_comm] at skipped
      unfold Text.codeOf? at found
      rw [List.cons_append, List.cons_append, List.append_assoc, quotedUnits.eq_def]
      simp [noEscape, found, skipped, read, Except.map]
  | @escape c tail short _ ih =>
      obtain ⟨units, read⟩ := ih
      let own :=
        if c = 'n' then [0x0A]
        else if c = 'r' then [0x0D]
        else if c = 't' then [0x09]
        else Text.unitsOfChar c
      refine ⟨own ++ units, fun rest => ?_⟩
      have skipped := quotedUnits_skip quote [c] (tail ++ quote :: rest)
      rw [List.length_singleton, List.singleton_append] at skipped
      rw [List.cons_append, List.cons_append, quotedUnits.eq_def]
      simp only [noEscape, if_false, if_true, skipped, read]
      rfl

/-- A string of the grammar is read back as one. -/
theorem exists_readsBack_string {quote : Char} (quotes : quote = '"' ∨ quote = '\'')
    (isQuoted : lenient.IsQuoted quote text)
    : ∃ form, ReadsBack form (quote :: (text ++ [quote])) := by
  obtain ⟨units, read⟩ := quotedUnits_of_isQuoted quotes isQuoted
  have visible : Text.isWhiteSpace quote = false ∧ quote ≠ ']' := by
    rcases quotes with rfl | rfl <;> decide
  refine ⟨string (String.ofList (Text.decodeUnits units)), ⟨quote, _, rfl, visible⟩, ?_⟩
  intro bound rest _ _
  refine ⟨string (String.ofList (Text.decodeUnits units)), ?_, by simp [equals]⟩
  rw [List.cons_append, List.append_assoc, List.singleton_append, readValue, skipBlanks_cons visible.1]
  rcases quotes with rfl | rfl <;> simp [read, Except.map]

/-- A numeral of the grammar is read back as a number. -/
theorem exists_readsBack_number (isNumeral : lenient.IsNumeral text) : ∃ form, ReadsBack form text := by
  obtain ⟨value, read⟩ := Option.isSome_iff_exists.mp (Number.isNumeral_iff.mp isNumeral)
  have present : text ≠ [] := by
    rintro rfl
    cases read
  have notNil : text ≠ "nil".toList := by
    rintro rfl
    cases read
  have plain := isPlain_of_isNumeral isNumeral
  refine ⟨number value, readsBack_of_word present plain fun bound rest ends => ?_⟩
  refine ⟨number value, ?_, by simp [equals, Number.equals]⟩
  rw [readValue_word present plain ends, if_neg notNil, read]

/-- A colon and a word are read back as an atom. -/
theorem exists_readsBack_atom {name : List Char} (present : name ≠ [])
    (plain : ∀ c ∈ name, isDelimiter c = false)
    : ∃ form, ReadsBack form (':' :: name) := by
  have isWord : IsWord (String.ofList name) := by
    refine ⟨fun empty => present ?_, by simpa using plain⟩
    simpa using congrArg String.toList empty
  have reads := readsBack_atom isWord
  rw [write, String.toList_ofList] at reads
  exact ⟨_, reads⟩

mutual

/-- Every value of the grammar is read back as a form, by recursion on its derivation. -/
theorem exists_readsBack {text : List Char} : lenient.IsValue text → ∃ form, ReadsBack form text
  | .nil => ⟨nil, readsBack_nil⟩
  | .atom present plain => exists_readsBack_atom present plain
  | .string quotes inner => exists_readsBack_string quotes inner
  | .number isNumeral => exists_readsBack_number isNumeral
  | .list inner => by
      obtain ⟨items, reads⟩ := exists_readsItemsBack inner
      exact ⟨list items, reads.list (by simp)⟩

/-- All items of the grammar are read back up to the end of their list. -/
theorem exists_readsItemsBack {text : List Char}
    : lenient.IsItems text → ∃ items, ReadsItemsBack items (text ++ [']'])
  | .none isBlank => ⟨[], readsItemsBack_end.blanks isBlank⟩
  | .last isBefore isItem isAfter => by
      obtain ⟨item, reads⟩ := exists_readsBack isItem
      refine ⟨[item], ?_⟩
      rw [List.append_assoc, List.append_assoc]
      exact (reads.last isAfter).blanks isBefore
  | .more isBefore isItem isAfter others => by
      obtain ⟨item, reads⟩ := exists_readsBack isItem
      obtain ⟨items, rest⟩ := exists_readsItemsBack others
      refine ⟨item :: items, ?_⟩
      rw [List.append_assoc, List.append_assoc, List.append_assoc]
      exact (reads.comma isAfter rest).blanks isBefore

end

-----------------------------------------------------------------------------------------
-- What is read is derived
-----------------------------------------------------------------------------------------

/-- What was read of the text is accepted, and an error is at a place of the text. -/
def Recognizes {α : Type} (accepts : List Char → Prop) (text : List Char)
    : Except ReadStop (α × List Char) → Prop
  | .ok (_, rest) => ∃ front, text = front ++ rest ∧ accepts front
  | .error stop => stop.rest <:+ text

section Recognition

variable {α β : Type} {accepts derives : List Char → Prop} {outcome : Except ReadStop (α × List Char)}

/-- What is made of the result does not change what was recognized. -/
theorem Recognizes.map (recognizes : Recognizes accepts text outcome)
    {f : α × List Char → β × List Char} (keeps : ∀ found, (f found).2 = found.2)
    : Recognizes accepts text (outcome.map f) := by
  cases outcome with
  | error stop => exact recognizes
  | ok found =>
      obtain ⟨front, same, accepted⟩ := recognizes
      exact ⟨front, by rw [keeps, same], accepted⟩

/-- An item in front does not change what was recognized behind it. -/
theorem Recognizes.cons {others : Except ReadStop (List Form × List Char)}
    (recognizes : Recognizes accepts text others) (item : Form)
    : Recognizes accepts text do
        let (items, rest) ← others
        return (item :: items, rest) := by
  cases others with
  | error stop => exact recognizes
  | ok found => exact recognizes

/-- What stands in front belongs to what is derived. -/
theorem Recognizes.behind (recognizes : Recognizes accepts text outcome) (front : List Char)
    (derive : ∀ back rest, text = back ++ rest → accepts back → derives (front ++ back))
    : Recognizes derives (front ++ text) outcome := by
  cases outcome with
  | error stop => exact recognizes.trans (List.suffix_append _ _)
  | ok found =>
      obtain ⟨back, same, accepted⟩ := recognizes
      refine ⟨front ++ back, ?_, derive back found.2 same accepted⟩
      rw [same, List.append_assoc]

end Recognition

/-- A string is passed over up to its closing quote, behind what is left of an escape. -/
theorem recognizes_quotedUnits (quote : Char) (escaped : Nat) (text : List Char)
    : Recognizes
        (fun front =>
          ∃ passed body,
            front = passed ++ (body ++ [quote])
            ∧ passed.length = escaped
            ∧ lenient.IsQuoted quote body)
        text (quotedUnits quote escaped text) := by
  have inner {body : List Char} (isQuoted : lenient.IsQuoted quote body)
      : ∃ passed inner,
          body ++ [quote] = passed ++ (inner ++ [quote])
          ∧ passed.length = 0
          ∧ lenient.IsQuoted quote inner :=
    ⟨[], body, rfl, rfl, isQuoted⟩
  fun_induction quotedUnits quote escaped text with
  | case1 => exact List.nil_suffix
  | case2 escaped c rest ih =>
      refine ih.behind [c] ?_
      rintro back _ _ ⟨passed, body, rfl, length, isQuoted⟩
      exact ⟨c :: passed, body, rfl, by rw [List.length_cons, length], isQuoted⟩
  | case3 => exact ⟨[quote], rfl, inner .empty⟩
  | case4 => exact List.nil_suffix
  | case5 after digits value found noQuote ih =>
      obtain ⟨isCode, rest, rfl⟩ := Text.isCode_of_codeOf? found
      refine (ih.behind ['\\'] ?_).map fun _ => rfl
      rintro back _ same ⟨passed, body, rfl, length, isQuoted⟩
      rw [List.append_assoc, ← List.cons_append] at same
      obtain rfl := List.append_inj_left same (by simp [length, Nat.add_comm])
      have whole := inner (.code isCode isQuoted)
      simpa using whole
  | case6 => exact (List.suffix_cons _ _).trans (List.suffix_cons _ _)
  | case7 e after short own noQuote ih =>
      refine (ih.behind ['\\'] ?_).map fun _ => rfl
      rintro back _ same ⟨passed, body, rfl, length, isQuoted⟩
      obtain ⟨c, rfl⟩ := List.length_eq_one_iff.mp length
      obtain ⟨rfl, _⟩ := List.cons.inj same
      exact inner (.escape short isQuoted)
  | case8 c rest noQuote noEscape ih =>
      refine (ih.behind [c] ?_).map fun _ => rfl
      rintro back _ _ ⟨passed, body, rfl, length, isQuoted⟩
      obtain rfl := List.length_eq_zero_iff.mp length
      exact inner (.plain noQuote noEscape isQuoted)

/-- A value is led by blanks. -/
def IsLed (text : List Char) : Prop :=
  ∃ blanks value, text = blanks ++ value ∧ IsBlank blanks ∧ lenient.IsValue value

/-- Items are closed by the bracket behind them. -/
def IsBracketed (text : List Char) : Prop :=
  ∃ items, text = items ++ [']'] ∧ lenient.IsItems items

/-- Skipping blanks takes off white space only. -/
theorem skipBlanks_spec (text : List Char)
    : ∃ blanks, text = blanks ++ skipBlanks text ∧ IsBlank blanks :=
  ⟨_, List.takeWhile_append_dropWhile.symm, fun _ => List.mem_takeWhile_imp⟩

/-- A word and what follows it make up the text, and the word has no delimiter. -/
theorem wordOf_spec (text : List Char)
    : text = wordOf text ++ afterWord text ∧ ∀ c ∈ wordOf text, isDelimiter c = false :=
  ⟨List.takeWhile_append_dropWhile.symm, fun c member => by simpa using List.mem_takeWhile_imp member⟩

/-- A string is a value, read behind its opening quote. -/
theorem recognizes_string {quote : Char} (quotes : quote = '"' ∨ quote = '\'') (text : List Char)
    : Recognizes lenient.IsValue (quote :: text)
        ((quotedUnits quote 0 text).map fun (units, rest) =>
          (string (String.ofList (Text.decodeUnits units)), rest)) := by
  refine ((recognizes_quotedUnits quote 0 text).behind [quote] ?_).map fun _ => rfl
  rintro back _ _ ⟨passed, body, rfl, length, isQuoted⟩
  obtain rfl := List.length_eq_zero_iff.mp length
  exact .string quotes isQuoted

/-- Reading a value recognizes a value with blanks in front, if reading items recognizes items. -/
theorem recognizes_readValue {bound : Nat}
    (items : ∀ text, Recognizes IsBracketed text (readItems bound text)) (text : List Char)
    : Recognizes IsLed text (readValue (bound + 1) text) := by
  obtain ⟨blanks, same, isBlank⟩ := skipBlanks_spec text
  rw [readValue]
  generalize skipBlanks text = start at same ⊢
  subst same
  suffices read : Recognizes lenient.IsValue start (_ : Except ReadStop (Form × List Char)) from
    read.behind blanks fun value _ _ isValue => ⟨blanks, value, rfl, isBlank, isValue⟩
  obtain ⟨split_word, plain⟩ := wordOf_spec start
  split
  · exact List.nil_suffix
  next rest =>
    refine ((items rest).behind ['['] ?_).map fun _ => rfl
    rintro back _ _ ⟨inner, rfl, isItems⟩
    exact .list isItems
  next rest =>
    obtain ⟨same, plain⟩ := wordOf_spec rest
    split_ifs with none
    · exact List.suffix_cons _ _
    · refine ⟨':' :: wordOf rest, ?_, .atom (by simpa using none) plain⟩
      rw [List.cons_append, ← same]
  next rest => exact recognizes_string (.inl rfl) rest
  next rest => exact recognizes_string (.inr rfl) rest
  next =>
    split_ifs with isNil
    · exact ⟨_, split_word, isNil ▸ .nil⟩
    · cases found : numberOfWord? (wordOf start) with
      | none => exact List.suffix_rfl
      | some value =>
          have isNumeral := Number.isNumeral_iff.mpr (Option.isSome_of_eq_some found)
          exact ⟨_, split_word, .number isNumeral⟩

/-- A closing bracket ends the items. -/
theorem recognizes_readItems_end (bound : Nat) (rest : List Char)
    : Recognizes (fun front => front = [']']) (']' :: rest) (readItems bound (']' :: rest)) := by
  cases bound with
  | zero =>
      rw [readItems]
      exact List.suffix_rfl
  | succ bound =>
      rw [readItems_end]
      exact ⟨[']'], rfl, rfl⟩

/-- Reading items recognizes a value and what goes on behind it, given that shorter bounds do. -/
theorem recognizes_readItems {bound : Nat}
    (value : ∀ text, Recognizes IsLed text (readValue bound text))
    (others : ∀ text, Recognizes IsBracketed text (readItems bound text)) (text : List Char)
    : Recognizes IsBracketed text (readItems (bound + 1) text) := by
  obtain ⟨blanks, same, isBlank⟩ := skipBlanks_spec text
  rw [readItems]
  generalize skipBlanks text = start at same ⊢
  subst same
  split
  next rest => exact ⟨blanks ++ [']'], by simp, blanks, rfl, .none isBlank⟩
  next =>
    have recognized := value start
    cases read : readValue bound start with
    | error stop =>
        rw [read] at recognized
        exact recognized.trans (List.suffix_append _ _)
    | ok found =>
        obtain ⟨item, afterItem⟩ := found
        rw [read] at recognized
        obtain ⟨_, rfl, led, value, rfl, isLed, isValue⟩ := recognized
        obtain ⟨after, same, isAfter⟩ := skipBlanks_spec afterItem
        have isBefore : IsBlank (blanks ++ led) := List.forall_mem_append.mpr ⟨isBlank, isLed⟩
        generalize goesOn : skipBlanks afterItem = onward at same
        subst same
        have regroup (text : List Char)
            : blanks ++ (led ++ value ++ (after ++ text)) = blanks ++ led ++ (value ++ after) ++ text := by
          simp
        rw [regroup]
        simp only [bind, Except.bind, goesOn]
        split
        next rest _ =>
          have read : Recognizes IsBracketed
              (blanks ++ led ++ (value ++ after) ++ [','] ++ rest) (readItems bound rest) := by
            refine (others rest).behind _ ?_
            rintro back _ _ ⟨items, rfl, isItems⟩
            exact ⟨_, by simp, .more isBefore isValue isAfter isItems⟩
          rw [List.append_assoc] at read
          exact read.cons item
        next rest _ =>
          refine Recognizes.cons ((recognizes_readItems_end bound rest).behind _ ?_) item
          rintro back _ _ rfl
          exact ⟨_, by simp, .last isBefore isValue isAfter⟩
        · exact List.nil_suffix
        · exact List.suffix_append _ _

/-- However deep the reader may go, what it reads was derived. -/
theorem recognizes_of_bound (bound : Nat)
    : (∀ text, Recognizes IsLed text (readValue bound text))
      ∧ ∀ text, Recognizes IsBracketed text (readItems bound text) := by
  induction bound with
  | zero =>
      refine ⟨fun text => ?_, fun text => ?_⟩
      · rw [readValue]
        exact List.suffix_rfl
      · rw [readItems]
        exact List.suffix_rfl
  | succ bound ih => exact ⟨recognizes_readValue ih.2, recognizes_readItems ih.1 ih.2⟩

-----------------------------------------------------------------------------------------
-- The reader recognizes the notation
-----------------------------------------------------------------------------------------

/-- Whatever is a text of the grammar is read. -/
theorem read_of_isText (isText : lenient.IsText text) : ∃ form, read text = .ok form := by
  obtain ⟨before, value, after, rfl, isBefore, isValue, isAfter⟩ := isText
  obtain ⟨form, reads⟩ := exists_readsBack isValue
  have ends : EndsWord after := by
    cases after with
    | nil => nofun
    | cons c after =>
        rintro _ ⟨⟩
        simp [isDelimiter, isAfter c List.mem_cons_self]
  have nothing : skipBlanks after = [] := List.dropWhile_eq_nil_iff.mpr isAfter
  obtain ⟨found, ran, _⟩ := reads.reads (2 * (before ++ (value ++ after)).length + 1) after
    (by simp; omega) ends
  rw [readValue, ← skipBlanks_append isBefore, ← readValue] at ran
  refine ⟨found, ?_⟩
  unfold read
  rw [ran]
  simp [nothing, bind, Except.bind, pure, Except.pure, Except.mapError]

/-- A text is of the notation, or reading it fails at a place of the text. -/
theorem isText_or_error (text : List Char)
    : lenient.IsText text
      ∨ ∃ error, read text = .error error ∧ Text.IsBoundary text error.offset := by
  have failed {stop : ReadStop} (isSuffix : stop.rest <:+ text)
      : Text.IsBoundary text (Text.size text - Text.size stop.rest) := by
    obtain ⟨front, same⟩ := isSuffix
    refine ⟨stop.rest, Text.drop?_eq_some.mpr ⟨front, same.symm, ?_⟩⟩
    rw [← same, Text.size_append, Nat.add_sub_cancel]
  have recognized := (recognizes_of_bound (2 * text.length + 2)).1 text
  unfold read
  cases ran : readValue (2 * text.length + 2) text with
  | error stop =>
      rw [ran] at recognized
      exact .inr ⟨_, rfl, failed recognized⟩
  | ok found =>
      obtain ⟨form, rest⟩ := found
      rw [ran] at recognized
      obtain ⟨_, rfl, before, value, rfl, isBefore, isValue⟩ := recognized
      obtain ⟨after, same, isAfter⟩ := skipBlanks_spec rest
      cases left : skipBlanks rest with
      | nil =>
          rw [left, List.append_nil] at same
          subst same
          exact .inl ⟨before, value, rest, List.append_assoc .., isBefore, isValue, isAfter⟩
      | cons c others =>
          refine .inr ⟨_, by simp only [bind, Except.bind, left]; rfl, failed ?_⟩
          rw [← left]
          exact (List.dropWhile_suffix _).trans (List.suffix_append _ _)

/-- Reading a text succeeds exactly if it is of the notation with the spellings that are read, among which
are those of the notation proper, and every other text fails at a place of its own.
-/
theorem reads_notation (text : List Char)
    : ((∃ form, read text = .ok form) ↔ lenient.IsText text)
      ∧ (strict.IsText text → ∃ form, read text = .ok form)
      ∧ (¬lenient.IsText text → ∃ error, read text = .error error ∧ Text.IsBoundary text error.offset) := by
  refine ⟨⟨fun ⟨form, ran⟩ => ?_, read_of_isText⟩, fun isText => ?_, (isText_or_error text).resolve_left⟩
  · refine (isText_or_error text).resolve_right ?_
    rintro ⟨error, failed, _⟩
    rw [ran] at failed
    cases failed
  · exact read_of_isText (lenient_of_strict isText)

/-- A name behind a minus sign is read as a number, although the notation has no such number. -/
theorem reads_minus_inf
    : read "-inf".toList = .ok (number (.infinity true)) ∧ ¬strict.IsText "-inf".toList := by
  refine ⟨by rfl, ?_⟩
  rintro ⟨before, value, after, same, isBefore, isValue, isAfter⟩
  have visible : ∀ c ∈ "-inf".toList, Text.isWhiteSpace c = false := by
    simpa using (by decide : "-inf".toList.any Text.isWhiteSpace = false)
  have nothing {blanks : List Char} (isBlank : IsBlank blanks) (within : ∀ c ∈ blanks, c ∈ "-inf".toList)
      : blanks = [] := by
    refine List.eq_nil_iff_forall_not_mem.mpr fun c member => ?_
    have := visible c (within c member)
    rw [isBlank c member] at this
    cases this
  obtain rfl := nothing isBefore fun c member => by simp [same, member]
  obtain rfl := nothing isAfter fun c member => by simp [same, member]
  rw [List.nil_append, List.append_nil, show "-inf".toList = ['-', 'i', 'n', 'f'] from rfl] at same
  have noDigits : Text.isDigit '-' = false ∧ Text.isDigit 'i' = false := by decide
  cases isValue with
  | nil => exact absurd same (by decide)
  | atom => cases same
  | string quotes =>
      obtain ⟨rfl, _⟩ := List.cons.inj same
      exact absurd quotes (by decide)
  | list => cases same
  | number isNumeral =>
      rw [← same] at isNumeral
      rcases isNumeral with isName | isName | isName | ⟨digits, isUnsigned, whole | whole⟩
      · exact absurd isName (by decide)
      · exact absurd isName (by decide)
      · exact absurd isName (by decide)
      · obtain ⟨first, rest, rfl, opens⟩ := isUnsigned.opens
        obtain ⟨rfl, _⟩ := List.cons.inj whole
        simp [noDigits] at opens
      · obtain ⟨first, rest, rfl, opens⟩ := isUnsigned.opens
        obtain ⟨rfl, _⟩ := List.cons.inj (List.cons.inj whole).2
        simp [noDigits] at opens

end Form

end EcmaSyntax
