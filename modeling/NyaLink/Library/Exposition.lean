import Mathlib.Data.List.Basic

/-!
# Lines of samples

A text is the list of its characters.  An exposition is made of lines, each
ended by a line feed: a comment, or a sample with its labels.  The value of a
label stands in quotes, and a backslash, a quote and a line feed in it are
escaped.
-/

namespace Exposition

abbrev Text := List Char

/-! ## Lines -/

def lines : Text → List Text
  | [] => []
  | c :: rest =>
      if c = '\n' then [] :: lines rest
      else
        match lines rest with
        | [] => [[c]]
        | line :: more => (c :: line) :: more

/-- Every line with the line feed that ends it. -/
def unlines (ls : List Text) : Text := ls.flatMap fun line => line ++ ['\n']

theorem unlines_append (first second : List Text) :
    unlines (first ++ second) = unlines first ++ unlines second := List.flatMap_append

theorem lines_append {line : Text} (oneLine : '\n' ∉ line) (rest : Text) :
    lines (line ++ '\n' :: rest) = line :: lines rest := by
  induction line with
  | nil => exact if_pos rfl
  | cons c line inductionHypothesis =>
      have other : c ≠ '\n' := fun same => oneLine (same ▸ List.mem_cons_self)
      have later : '\n' ∉ line := fun found => oneLine (List.mem_cons_of_mem c found)
      rw [List.cons_append, lines, if_neg other, inductionHypothesis later]

theorem lines_unlines {ls : List Text} (oneLine : ∀ line ∈ ls, '\n' ∉ line) :
    lines (unlines ls) = ls := by
  induction ls with
  | nil => rfl
  | cons line ls inductionHypothesis =>
      have split : unlines (line :: ls) = line ++ '\n' :: unlines ls := by
        rw [unlines, List.flatMap_cons, List.append_assoc]
        rfl
      rw [split, lines_append (oneLine line List.mem_cons_self),
        inductionHypothesis fun other later => oneLine other (List.mem_cons_of_mem line later)]

/-! ## Label values -/

def escapeChar : Char → Text
  | '\\' => ['\\', '\\']
  | '"' => ['\\', '"']
  | '\n' => ['\\', 'n']
  | c => [c]

def escape (value : Text) : Text := value.flatMap escapeChar

/-- What a backslash and a character stand for. -/
def unescapeChar : Char → Option Char
  | '\\' => some '\\'
  | '"' => some '"'
  | 'n' => some '\n'
  | _ => none

def unescape : Text → Option Text
  | [] => some []
  | ['\\'] => none
  | '\\' :: c :: rest => do
      let meant ← unescapeChar c
      let value ← unescape rest
      pure (meant :: value)
  | c :: rest => (unescape rest).map (c :: ·)

/-- What stands before the closing quote, and what comes after it. -/
def quoted : Text → Option (Text × Text)
  | [] => none
  | '"' :: rest => some ([], rest)
  | ['\\'] => none
  | '\\' :: c :: rest => (quoted rest).map fun read => ('\\' :: c :: read.1, read.2)
  | c :: rest => (quoted rest).map fun read => (c :: read.1, read.2)

theorem unescape_cons {c : Char} (plain : c ≠ '\\') (rest : Text) :
    unescape (c :: rest) = (unescape rest).map (c :: ·) := by
  cases rest <;> simp [unescape, plain]

theorem unescape_escaped {c meant : Char} (stands : unescapeChar c = some meant) (rest : Text) :
    unescape ('\\' :: c :: rest) = (unescape rest).map (meant :: ·) := by
  cases read : unescape rest <;> simp [unescape, stands, read]

theorem quoted_cons {c : Char} (plain : c ≠ '\\') (notQuote : c ≠ '"') (rest : Text) :
    quoted (c :: rest) = (quoted rest).map fun read => (c :: read.1, read.2) := by
  cases rest <;> simp [quoted, plain]

theorem quoted_escaped (c : Char) (rest : Text) :
    quoted ('\\' :: c :: rest) = (quoted rest).map fun read => ('\\' :: c :: read.1, read.2) := by
  rw [quoted]

theorem escapeChar_plain {c : Char} (plain : c ≠ '\\') (notQuote : c ≠ '"') (inLine : c ≠ '\n') :
    escapeChar c = [c] := by
  rw [escapeChar]
  · exact plain
  · exact notQuote
  · exact inLine

/-- A character is written with a backslash before what stands for it, or as it is. -/
theorem escapeChar_cases (c : Char) :
    (∃ written, escapeChar c = ['\\', written] ∧ unescapeChar written = some c ∧
      written ≠ '\n') ∨
      (escapeChar c = [c] ∧ c ≠ '\\' ∧ c ≠ '"' ∧ c ≠ '\n') := by
  by_cases backslash : c = '\\'
  · subst backslash
    exact .inl ⟨'\\', rfl, rfl, by decide⟩
  by_cases quote : c = '"'
  · subst quote
    exact .inl ⟨'"', rfl, rfl, by decide⟩
  by_cases lineFeed : c = '\n'
  · subst lineFeed
    exact .inl ⟨'n', rfl, rfl, by decide⟩
  · exact .inr ⟨escapeChar_plain backslash quote lineFeed, backslash, quote, lineFeed⟩

theorem escape_cons (c : Char) (value : Text) :
    escape (c :: value) = escapeChar c ++ escape value := List.flatMap_cons

theorem unescape_escapeChar (c : Char) (rest : Text) :
    unescape (escapeChar c ++ rest) = (unescape rest).map (c :: ·) := by
  rcases escapeChar_cases c with ⟨written, escaped, stands, _⟩ | ⟨same, plain, _, _⟩
  · rw [escaped, List.cons_append, List.singleton_append, unescape_escaped stands]
  · rw [same, List.singleton_append, unescape_cons plain]

theorem unescape_escape (value : Text) : unescape (escape value) = some value := by
  induction value with
  | nil => rfl
  | cons c value inductionHypothesis =>
      rw [escape_cons, unescape_escapeChar, inductionHypothesis]
      rfl

theorem quoted_escape (value rest : Text) :
    quoted (escape value ++ '"' :: rest) = some (escape value, rest) := by
  induction value with
  | nil => rfl
  | cons c value inductionHypothesis =>
      rw [escape_cons, List.append_assoc]
      rcases escapeChar_cases c with ⟨written, escaped, _, _⟩ | ⟨same, plain, notQuote, _⟩
      · rw [escaped, List.cons_append, List.singleton_append, quoted_escaped,
          inductionHypothesis]
        rfl
      · rw [same, List.singleton_append, quoted_cons plain notQuote, inductionHypothesis]
        rfl

theorem escape_eq_self {value : Text} (backslash : '\\' ∉ value) (quote : '"' ∉ value)
    (lineFeed : '\n' ∉ value) : escape value = value := by
  induction value with
  | nil => rfl
  | cons c value inductionHypothesis =>
      simp only [List.mem_cons, not_or] at backslash quote lineFeed
      rw [escape_cons,
        escapeChar_plain (Ne.symm backslash.1) (Ne.symm quote.1) (Ne.symm lineFeed.1),
        inductionHypothesis backslash.2 quote.2 lineFeed.2]
      rfl

theorem lineFeed_notMem_escape (value : Text) : '\n' ∉ escape value := by
  induction value with
  | nil => exact List.not_mem_nil
  | cons c value inductionHypothesis =>
      rw [escape_cons, List.mem_append, not_or]
      refine ⟨?_, inductionHypothesis⟩
      rcases escapeChar_cases c with ⟨written, escaped, _, inLine⟩ | ⟨same, _, _, inLine⟩
      · simpa [escaped] using Ne.symm inLine
      · simpa [same] using Ne.symm inLine

/-! ## Samples -/

structure Sample where
  name : Text
  labels : List (Text × Text)
  value : Text
  deriving DecidableEq, Repr

/-- A character of a name or of the key of a label. -/
def isNameChar (c : Char) : Bool := c.isAlphanum || c == '_' || c == ':'

def label (key value : Text) : Text := key ++ '=' :: '"' :: (escape value ++ ['"'])

def labelList : List (Text × Text) → Text
  | [] => []
  | [(key, value)] => label key value
  | (key, value) :: rest => label key value ++ ',' :: labelList rest

def Sample.line (sample : Sample) : Text :=
  if sample.labels = [] then sample.name ++ ' ' :: sample.value
  else sample.name ++ '{' :: (labelList sample.labels ++ '}' :: ' ' :: sample.value)

/-- A value in quotes, with its escapes. -/
def readValue (text : Text) : Option (Text × Text) := do
  let (raw, rest) ← quoted text
  let value ← unescape raw
  pure (value, rest)

/-- The labels up to the closing brace, and what comes after it. -/
def readLabels : Nat → Text → Option (List (Text × Text) × Text)
  | 0, _ => none
  | fuel + 1, text =>
      match text.dropWhile isNameChar with
      | '=' :: '"' :: rest =>
          let key := text.takeWhile isNameChar
          match readValue rest with
          | some (value, '}' :: rest) => some ([(key, value)], rest)
          | some (value, ',' :: rest) =>
              (readLabels fuel rest).map fun read => ((key, value) :: read.1, read.2)
          | _ => none
      | _ => none

def readSample (line : Text) : Option Sample :=
  let name := line.takeWhile isNameChar
  match line.dropWhile isNameChar with
  | ' ' :: value => some ⟨name, [], value⟩
  | '{' :: rest =>
      match readLabels rest.length rest with
      | some (labels, ' ' :: value) => some ⟨name, labels, value⟩
      | _ => none
  | _ => none

def isComment (line : Text) : Bool := line.head? == some '#'

/-- Every line that is not a comment, as it is read. -/
def read (text : Text) : List (Option Sample) :=
  ((lines text).filter fun line => !isComment line).map readSample

/-! ## What was written is read -/

theorem takeWhile_name {name : Text} (plain : ∀ c ∈ name, isNameChar c = true) (next : Char)
    (ends : isNameChar next = false) (rest : Text) :
    (name ++ next :: rest).takeWhile isNameChar = name ∧
      (name ++ next :: rest).dropWhile isNameChar = next :: rest := by
  rw [List.takeWhile_append_of_pos plain, List.dropWhile_append_of_pos plain,
    List.takeWhile_cons_of_neg (by simp [ends]), List.dropWhile_cons_of_neg (by simp [ends]),
    List.append_nil]
  exact ⟨rfl, rfl⟩

theorem readValue_label (value rest : Text) :
    readValue (escape value ++ '"' :: rest) = some (value, rest) := by
  simp [readValue, quoted_escape, unescape_escape]

theorem label_append (key value rest : Text) :
    label key value ++ rest = key ++ '=' :: ('"' :: (escape value ++ '"' :: rest)) := by
  simp [label]

theorem readLabels_labelList {labels : List (Text × Text)} (some_label : labels ≠ [])
    (plain : ∀ entry ∈ labels, ∀ c ∈ entry.1, isNameChar c = true) (rest : Text) {fuel : Nat}
    (enough : labels.length ≤ fuel) :
    readLabels fuel (labelList labels ++ '}' :: rest) = some (labels, rest) := by
  induction labels generalizing fuel with
  | nil => exact absurd rfl some_label
  | cons entry labels inductionHypothesis =>
      obtain ⟨key, value⟩ := entry
      obtain ⟨fuel, rfl⟩ : ∃ less, fuel = less + 1 := ⟨fuel - 1, by simp at enough; omega⟩
      have keyPlain := plain (key, value) List.mem_cons_self
      cases labels with
      | nil =>
          obtain ⟨taken, dropped⟩ := takeWhile_name keyPlain '=' (by decide)
            ('"' :: (escape value ++ '"' :: '}' :: rest))
          rw [labelList, label_append, readLabels, dropped]
          simp only [readValue_label, taken]
      | cons other more =>
          have later := inductionHypothesis (List.cons_ne_nil other more)
            (fun entry membership => plain entry (List.mem_cons_of_mem _ membership))
            (Nat.le_of_succ_le_succ enough)
          obtain ⟨taken, dropped⟩ := takeWhile_name keyPlain '=' (by decide)
            ('"' :: (escape value ++ '"' :: ',' :: (labelList (other :: more) ++ '}' :: rest)))
          rw [labelList, List.append_assoc, List.cons_append, label_append, readLabels, dropped]
          · simp only [readValue_label, taken, later, Option.map_some]
          · exact List.cons_ne_nil other more

theorem length_labelList (labels : List (Text × Text)) :
    labels.length ≤ (labelList labels).length := by
  induction labels with
  | nil => exact Nat.le_refl 0
  | cons entry labels inductionHypothesis =>
      cases labels with
      | nil =>
          simp only [labelList, label, List.length_append, List.length_cons, List.length_nil]
          omega
      | cons other more =>
          rw [labelList]
          · simp only [List.length_append, List.length_cons] at inductionHypothesis ⊢
            omega
          · exact List.cons_ne_nil other more

/-- The name and the keys of the labels are made of name characters; the value is in the line. -/
structure Sample.Plain (sample : Sample) : Prop where
  name : ∀ c ∈ sample.name, isNameChar c = true
  keys : ∀ entry ∈ sample.labels, ∀ c ∈ entry.1, isNameChar c = true
  value : '\n' ∉ sample.value

theorem readSample_line {sample : Sample} (plain : sample.Plain) :
    readSample sample.line = some sample := by
  obtain ⟨name, labels, value⟩ := sample
  unfold Sample.line
  by_cases none_given : labels = []
  · subst none_given
    obtain ⟨taken, dropped⟩ := takeWhile_name plain.name ' ' (by decide) value
    rw [if_pos rfl, readSample, dropped, taken]
    rfl
  · obtain ⟨taken, dropped⟩ := takeWhile_name plain.name '{' (by decide)
      (labelList labels ++ '}' :: ' ' :: value)
    have enough : labels.length ≤ (labelList labels ++ '}' :: ' ' :: value).length := by
      have counted := length_labelList labels
      rw [List.length_append]
      omega
    rw [if_neg none_given, readSample, dropped, taken]
    simp only [readLabels_labelList none_given plain.keys (' ' :: value) enough]

/-! ## A text of samples -/

theorem notMem_of_plain {name : Text} (plain : ∀ c ∈ name, isNameChar c = true) {other : Char}
    (notName : isNameChar other = false) : other ∉ name := by
  intro found
  rw [plain other found] at notName
  cases notName

theorem lineFeed_notMem_label {key : Text} (plain : ∀ c ∈ key, isNameChar c = true)
    (value : Text) : '\n' ∉ label key value := by
  simp [label, notMem_of_plain plain (by decide : isNameChar '\n' = false),
    lineFeed_notMem_escape]

theorem lineFeed_notMem_labelList {labels : List (Text × Text)}
    (plain : ∀ entry ∈ labels, ∀ c ∈ entry.1, isNameChar c = true) :
    '\n' ∉ labelList labels := by
  induction labels with
  | nil => simp [labelList]
  | cons entry labels inductionHypothesis =>
      have first := lineFeed_notMem_label (plain entry List.mem_cons_self) entry.2
      cases labels with
      | nil => exact first
      | cons other more =>
          have later := inductionHypothesis fun entry membership =>
            plain entry (List.mem_cons_of_mem _ membership)
          rw [labelList]
          · simp [first, later]
          · exact List.cons_ne_nil other more

theorem lineFeed_notMem_line {sample : Sample} (plain : sample.Plain) : '\n' ∉ sample.line := by
  have name := notMem_of_plain plain.name (by decide : isNameChar '\n' = false)
  unfold Sample.line
  split
  · simp [name, plain.value]
  · simp [name, plain.value, lineFeed_notMem_labelList plain.keys]

theorem isComment_line {sample : Sample} (plain : sample.Plain) :
    isComment sample.line = false := by
  have name := notMem_of_plain plain.name (by decide : isNameChar '#' = false)
  unfold Sample.line isComment
  cases written : sample.name with
  | nil => split <;> rfl
  | cons c rest =>
      have first : c ≠ '#' := by
        rintro rfl
        exact name (written ▸ List.mem_cons_self)
      split <;> simp [first]

theorem read_unlines {ls : List Text} {samples : List Sample}
    (oneLine : ∀ line ∈ ls, '\n' ∉ line) (plain : ∀ sample ∈ samples, sample.Plain)
    (written : ls.filter (fun line => !isComment line) = samples.map Sample.line) :
    read (unlines ls) = samples.map some := by
  rw [read, lines_unlines oneLine, written, List.map_map]
  exact List.map_congr_left fun sample membership => readSample_line (plain sample membership)

end Exposition
