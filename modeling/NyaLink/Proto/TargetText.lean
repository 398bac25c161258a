import NyaLink.Library.Split
import NyaLink.Proto.Wire

/-!
# Targets as text

A target is displayed as its host and its port, the host in brackets when it has
a colon in it.  `Target::parse` takes a text apart at its last separator; text in
brackets need not have a colon between them.
-/

namespace NyaLink.Wire

def unsigned (text : List Char) : List Char :=
  if text.head? = some '+' then text.tail else text

/-- `u16::from_str`: digits, and a plus sign before them if one is there. -/
def parseU16 (text : List Char) : Option UInt16 :=
  if unsigned text ≠ [] ∧ (unsigned text).all Char.isDigit = true then
    if Nat.ofDigitChars 10 (unsigned text) 0 < 2 ^ 16 then
      some (.ofNat (Nat.ofDigitChars 10 (unsigned text) 0))
    else none
  else none

namespace Target

/-- The `Display` of a target. -/
def fmt (t : Target) : String :=
  if ':' ∈ t.host.toList then "[" ++ t.host ++ "]:" ++ t.port.toNat.repr
  else t.host ++ ":" ++ t.port.toNat.repr

/-- The host before the last separator and the port after it. -/
def parseParts (separator text : List Char) : Except ProtoError Target :=
  match rsplitOnce separator text with
  | none => .error (.invalid "target")
  | some (host, port) =>
      match parseU16 port with
      | none => .error (.invalid "port")
      | some port => .ok ⟨String.ofList host, port⟩

def parse (s : String) : Except ProtoError Target :=
  match s.toList with
  | '[' :: rest => parseParts [']', ':'] rest
  | text => parseParts [':'] text

end Target

/-! ## Ports -/

theorem mem_unsigned {text : List Char} {c : Char} (sign : c ≠ '+') (membership : c ∈ text) :
    c ∈ unsigned text := by
  unfold unsigned
  split
  · rename_i plus
    cases text with
    | nil => cases membership
    | cons first rest =>
        obtain rfl : first = '+' := Option.some.inj plus
        exact (List.mem_cons.mp membership).resolve_left sign
  · exact membership

theorem not_mem_of_parseU16 {text : List Char} {port : UInt16} (parsed : parseU16 text = some port)
    {c : Char} (sign : c ≠ '+') (digit : c.isDigit = false) : c ∉ text := by
  intro membership
  unfold parseU16 at parsed
  split at parsed
  · rename_i digits
    have found := List.all_eq_true.mp digits.2 c (mem_unsigned sign membership)
    rw [digit] at found
    cases found
  · cases parsed

theorem parseU16_repr (port : UInt16) : parseU16 port.toNat.repr.toList = some port := by
  have digits : ∀ c ∈ Nat.toDigits 10 port.toNat, c.isDigit = true :=
    fun c membership => Nat.isDigit_of_mem_toDigits (by decide) (by decide) membership
  have plain : unsigned (Nat.toDigits 10 port.toNat) = Nat.toDigits 10 port.toNat := by
    refine if_neg fun plus => ?_
    have found := digits '+' (List.mem_of_head? plus)
    exact absurd found (by decide)
  unfold parseU16
  rw [Nat.toList_repr, plain, if_pos ⟨Nat.toDigits_ne_nil, List.all_eq_true.mpr digits⟩,
    Nat.ofDigitChars_ten_toDigits, if_pos port.toNat_lt, UInt16.ofNat_toNat]

/-! ## Hosts -/

namespace Target

theorem parseParts_eq_ok_iff {first : Char} {more text : List Char} (sign : first ≠ '+')
    (digit : first.isDigit = false) (once : first ∉ more) (t : Target) :
    parseParts (first :: more) text = .ok t ↔ ∃ port, parseU16 port = some t.port ∧
      text = t.host.toList ++ (first :: more ++ port) := by
  constructor
  · intro parsed
    unfold parseParts at parsed
    split at parsed
    · cases parsed
    · rename_i host port split
      split at parsed
      · cases parsed
      · rename_i value numeral
        cases parsed
        refine ⟨port, numeral, ?_⟩
        rw [String.toList_ofList]
        exact eq_of_rsplitOnce split
  · rintro ⟨port, numeral, rfl⟩
    have absent : first ∉ more ++ port := by
      rw [List.mem_append, not_or]
      exact ⟨once, not_mem_of_parseU16 numeral sign digit⟩
    unfold parseParts
    rw [rsplitOnce_append _ absent]
    dsimp only
    rw [numeral, String.ofList_toList]

/-- A text is a host in brackets, or one without, and a port. -/
theorem parse_eq_ok_iff (s : String) (t : Target) :
    parse s = .ok t ↔ ∃ port, parseU16 port = some t.port ∧
      (s.toList = '[' :: (t.host.toList ++ ([']', ':'] ++ port)) ∨
        s.toList.head? ≠ some '[' ∧ s.toList = t.host.toList ++ ([':'] ++ port)) := by
  unfold parse
  split
  · rename_i rest bracketed
    rw [parseParts_eq_ok_iff (by decide) (by decide) (by decide), bracketed]
    simp
  · rename_i plain
    have head : s.toList.head? ≠ some '[' := by
      intro bracket
      cases text : s.toList with
      | nil =>
          rw [text] at bracket
          cases bracket
      | cons first rest =>
          rw [text] at bracket
          obtain rfl : first = '[' := Option.some.inj bracket
          exact plain rest text
    rw [parseParts_eq_ok_iff (by decide) (by decide) (by decide)]
    refine exists_congr fun port => and_congr_right fun _ => ?_
    constructor
    · exact fun same => .inr ⟨head, same⟩
    · rintro (bracketed | ⟨_, same⟩)
      · exact absurd (congrArg List.head? bracketed) head
      · exact same

theorem toList_fmt_of_colon {t : Target} (colon : ':' ∈ t.host.toList) :
    t.fmt.toList = '[' :: (t.host.toList ++ ([']', ':'] ++ t.port.toNat.repr.toList)) := by
  unfold fmt
  rw [if_pos colon]
  simp only [String.toList_append, List.append_assoc]
  rfl

theorem toList_fmt_of_plain {t : Target} (plain : ':' ∉ t.host.toList) :
    t.fmt.toList = t.host.toList ++ ([':'] ++ t.port.toNat.repr.toList) := by
  unfold fmt
  rw [if_neg plain]
  simp only [String.toList_append, List.append_assoc]
  rfl

theorem parse_fmt_of_bracket {t : Target} (plain : ':' ∉ t.host.toList)
    (bracket : t.host.toList.head? = some '[') : parse t.fmt ≠ .ok t := by
  intro parsed
  obtain ⟨port, numeral, form⟩ := (parse_eq_ok_iff _ _).mp parsed
  have digits := not_mem_of_parseU16 (parseU16_repr t.port) (by decide : ':' ≠ '+') (by decide)
  have portDigits := not_mem_of_parseU16 numeral (by decide : ':' ≠ '+') (by decide)
  have shown := rsplitOnce_append t.host.toList (List.not_mem_append List.not_mem_nil digits)
  rw [← toList_fmt_of_plain plain] at shown
  rcases form with bracketed | ⟨unbracketed, _⟩
  · -- the last colon of the text is the one before the port, whichever way the text is read
    have read := rsplitOnce_append ('[' :: (t.host.toList ++ [']']))
      (List.not_mem_append List.not_mem_nil portDigits)
    have same : t.fmt.toList = '[' :: (t.host.toList ++ [']']) ++ ([':'] ++ port) := by
      rw [bracketed]
      simp
    rw [← same, shown] at read
    have hosts := congrArg List.length (Prod.mk.inj (Option.some.inj read)).1
    simp at hosts
    omega
  · apply unbracketed
    rw [toList_fmt_of_plain plain, List.head?_append, bracket]
    rfl

/-- A text is read as a target exactly if it is its host, in brackets or without, and a numeral of
its port; and a target is read back from its display exactly if its host has a colon in it or does
not begin with a bracket. -/
theorem target_text :
    (∀ (s : String) (t : Target), parse s = .ok t ↔ ∃ port, parseU16 port = some t.port ∧
      (s.toList = '[' :: (t.host.toList ++ ([']', ':'] ++ port)) ∨
        s.toList.head? ≠ some '[' ∧ s.toList = t.host.toList ++ ([':'] ++ port))) ∧
      ∀ t : Target, parse t.fmt = .ok t ↔
        ':' ∈ t.host.toList ∨ t.host.toList.head? ≠ some '[' := by
  refine ⟨parse_eq_ok_iff, fun t => ?_⟩
  by_cases colon : ':' ∈ t.host.toList
  · refine iff_of_true ?_ (.inl colon)
    apply (parse_eq_ok_iff _ _).mpr
    exact ⟨_, parseU16_repr t.port, .inl (toList_fmt_of_colon colon)⟩
  · by_cases bracket : t.host.toList.head? = some '['
    · refine iff_of_false (parse_fmt_of_bracket colon bracket) ?_
      rintro (found | other)
      · exact colon found
      · exact other bracket
    · refine iff_of_true ?_ (.inr bracket)
      apply (parse_eq_ok_iff _ _).mpr
      refine ⟨_, parseU16_repr t.port, .inr ⟨?_, toList_fmt_of_plain colon⟩⟩
      rw [toList_fmt_of_plain colon]
      cases host : t.host.toList with
      | nil => exact fun impossible => absurd (Option.some.inj impossible) (by decide)
      | cons first rest =>
          rw [host] at bracket
          exact bracket

example : parse "[::1]:80" = .ok ⟨"::1", 80⟩ := by decide +kernel

end Target

end NyaLink.Wire
