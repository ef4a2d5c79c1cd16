/-
# Written JSON reads back

Reading is two machines, one that cuts a text into tokens and one that builds a value from tokens.
`Json.tokens` is where they meet: the tokens of the text of a value, whatever its layout.

* `Layout.scan_chars`: scanning the text of a value, in front of anything that cannot continue its
  last word, finds the tokens of the value.
* `Builder.run_tokens`: building from the tokens of a value, in any place, arrives at the value.
* `read?_pretty`: so the text of a value is read as that value.

This holds of the values that reports are made of (`Json.isPlain`): their numbers are naturals of
one machine word. A text may hold any characters.
-/
import CallDepth.Json.Printer
import CallDepth.Json.Reader
import CallDepth.Proofs.DecimalNumerals
import Mathlib.Data.List.TakeWhile

namespace CallDepth

/-- Reading item by item what was written item by item gives the items back. -/
theorem mapM_map_of_inverse {α β : Type} {write : α → β} {read : β → Option α}
    (inverse : ∀ item, read (write item) = some item) (items : List α) :
    (items.map write).mapM read = some items := by
  induction items with
  | nil => rfl
  | cons item items ih => simp [inverse, ih]

namespace Json

/-! ## Numbers -/

theorem isWhole_toDigits (value : Nat) : Numeral.isWhole (Nat.toDigits 10 value) = true := by
  by_cases small : value < 10
  · rw [Nat.toDigits_of_lt_base small]
    rfl
  · have leading : (Nat.toDigits 10 value).head? ≠ some '0' :=
      head?_toDigits_ne_zero (by omega)
    cases digits : Nat.toDigits 10 value with
    | nil => exact absurd digits Nat.toDigits_ne_nil
    | cons first others =>
        rw [digits] at leading
        cases others with
        | nil => rfl
        | cons second others => simpa [Numeral.isWhole] using leading

/-- The digits of a natural number are its literal. -/
theorem ofChars?_toDigits (value : Nat) :
    Numeral.ofChars? (Nat.toDigits 10 value) =
      some ⟨false, Nat.toDigits 10 value, none, none⟩ := by
  have digits : ∀ c ∈ Nat.toDigits 10 value, isDigit c = true := fun _ => isDigit_of_mem_toDigits
  have unsigned : Numeral.ofChars? (Nat.toDigits 10 value) =
      Numeral.unsigned? false (Nat.toDigits 10 value) := by
    unfold Numeral.ofChars?
    split
    · rename_i rest signed
      exact absurd (digits '-' (by simp [signed])) (by decide)
    · rfl
  rw [unsigned, Numeral.unsigned?]
  simp only [List.takeWhile_eq_self_iff.2 digits, List.dropWhile_eq_nil_iff.2 digits,
    isWhole_toDigits, if_true]
  rfl

theorem endsWord_of_isDigit {c : Char} (digit : isDigit c = true) :
    Scan.endsWord c = false := by
  have bounds := toNat_of_isDigit digit
  have away : ∀ other : Char, other.toNat < 48 ∨ 57 < other.toNat → c ≠ other := by
    rintro other outside rfl
    omega
  simp [Scan.endsWord, isBlank, punctuation?, away]

/-- A word of digits is the number they denote. -/
theorem word?_toDigits {value : Nat} (bounded : value < wordBound) :
    word? (Nat.toDigits 10 value) = some (.ofNat value) := by
  have named : ∀ {name : List Char}, (∃ c ∈ name, isDigit c = false) →
      Nat.toDigits 10 value ≠ name := by
    rintro name ⟨c, member, letter⟩ rfl
    rw [isDigit_of_mem_toDigits member] at letter
    cases letter
  have number : Numeral.number? ⟨false, Nat.toDigits 10 value, none, none⟩ =
      some (.natural value) := by
    simp [Numeral.number?, Numeral.isInteger, digitsValue_toDigits, bounded]
  rw [word?, if_neg (named ⟨'n', by decide⟩), if_neg (named ⟨'t', by decide⟩),
    if_neg (named ⟨'f', by decide⟩), ofChars?_toDigits, Option.map_some, number]
  rfl

/-! ## Texts -/

/-- Characters are code points outside the surrogates. -/
theorem not_surrogate (c : Char) :
    isHighSurrogate c.toNat = false ∧ isLowSurrogate c.toNat = false := by
  have valid : c.toNat < 0xD800 ∨ 0xDFFF < c.toNat ∧ c.toNat < 0x110000 := c.valid
  simp only [isHighSurrogate, isLowSurrogate, Bool.and_eq_false_iff, decide_eq_false_iff_not]
  omega

theorem decodeUnits?_map_toNat (chars : List Char) :
    decodeUnits? (chars.map Char.toNat) = some chars := by
  induction chars with
  | nil => rfl
  | cons c rest ih =>
      obtain ⟨high, low⟩ := not_surrogate c
      cases rest with
      | nil => simp [decodeUnits?, high, low]
      | cons next rest =>
          rw [List.map_cons] at ih
          simp [decodeUnits?, high, low, ih]

theorem content?_toList (content : String) :
    content? (content.toList.map Char.toNat) = some content := by
  rw [content?, decodeUnits?_map_toNat, Option.map_some, String.ofList_toList]

theorem hexValue?_hexDigit {value : Nat} (small : value < 16) :
    hexValue? (hexDigit value) = some value := by
  revert value
  decide

/-! ## Scanning -/

namespace Scan

variable (found : List Token)

/-- The text cannot continue a word in front of it. -/
def EndsWords (text : List Char) : Prop :=
  ∀ c ∈ text.head?, endsWord c = true

theorem endsWords_nil : EndsWords [] := by
  intro c member
  cases member

theorem endsWords_cons {c : Char} (ends : endsWord c = true) (rest : List Char) :
    EndsWords (c :: rest) := by
  intro other member
  obtain rfl : c = other := by simpa using member
  exact ends

theorem endsWords_append {blanks rest : List Char} (blank : ∀ c ∈ blanks, isBlank c = true)
    (ends : EndsWords rest) : EndsWords (blanks ++ rest) := by
  cases blanks with
  | nil => exact ends
  | cons c blanks => exact endsWords_cons (by simp [endsWord, blank c (by simp)]) _

/-- One character that completes no token. -/
theorem run_silent {scan next : Scan} {c : Char} (silent : scan.step c = some ([], next))
    (rest : List Char) : scan.run found (c :: rest) = next.run found rest := by
  rw [run, silent]
  rfl

/-- One character that completes a token. -/
theorem run_token {scan next : Scan} {c : Char} {token : Token}
    (completes : scan.step c = some ([token], next)) (rest : List Char) :
    scan.run found (c :: rest) = next.run (token :: found) rest := by
  rw [run, completes]
  rfl

theorem run_blanks {blanks : List Char} (blank : ∀ c ∈ blanks, isBlank c = true)
    (rest : List Char) : outside.run found (blanks ++ rest) = outside.run found rest := by
  induction blanks with
  | nil => rfl
  | cons c blanks ih =>
      have here : outside.step c = some ([], outside) := if_pos (blank c List.mem_cons_self)
      rw [List.cons_append, run_silent found here]
      exact ih fun other member => blank other (List.mem_cons_of_mem c member)

/-- The characters of a word are collected. -/
theorem run_word_append {chars : List Char} (inside : ∀ c ∈ chars, endsWord c = false)
    (read rest : List Char) :
    (word read).run found (chars ++ rest) = (word (chars.reverse ++ read)).run found rest := by
  induction chars generalizing read with
  | nil => rfl
  | cons c chars ih =>
      have here : (word read).step c = some ([], word (c :: read)) := by
        simp [step, inside c List.mem_cons_self]
      rw [List.cons_append, run_silent found here,
        ih (fun other member => inside other (List.mem_cons_of_mem c member)), List.reverse_cons,
        List.append_assoc, List.singleton_append]

/-- A word is over at the end of the text and in front of a character that ends words. -/
theorem run_word_end {read rest : List Char} {value : Json}
    (denotes : word? read.reverse = some value) (ends : EndsWords rest) :
    (word read).run found rest = outside.run (.scalar value :: found) rest := by
  cases rest with
  | nil => simp [run, finish, denotes]
  | cons c rest =>
      have ended : endsWord c = true := ends c rfl
      rw [run, run, step, step, if_pos ended, denotes]
      cases start c with
      | none => rfl
      | some next => simp

/-- A word is scanned as its token, once something follows that ends it. -/
theorem run_word {chars rest : List Char} {value : Json} (nonempty : chars ≠ [])
    (inside : ∀ c ∈ chars, endsWord c = false) (denotes : word? chars = some value)
    (ends : EndsWords rest) :
    outside.run found (chars ++ rest) = outside.run (.scalar value :: found) rest := by
  cases chars with
  | nil => exact absurd rfl nonempty
  | cons first chars =>
      have begins : outside.step first = some ([], word [first]) := by
        have := inside first List.mem_cons_self
        simp_all [step, start, endsWord]
      rw [List.cons_append, run_silent found begins,
        run_word_append found (fun c member => inside c (List.mem_cons_of_mem first member)),
        run_word_end found (by simpa using denotes) ends]

theorem run_letterEscape (letter c : Char) (denotes : escaped? letter = some c)
    (read : List Nat) (rest : List Char) :
    (string read).run found ('\\' :: letter :: rest) =
      (string (c.toNat :: read)).run found rest := by
  have short : letter ≠ 'u' := by
    rintro rfl
    cases denotes
  have letterStep : (escape read).step letter = some ([], string (c.toNat :: read)) := by
    rw [step, if_neg short, denotes, Option.map_some]
  have backslash : (string read).step '\\' = some ([], escape read) := rfl
  rw [run_silent found backslash, run_silent found letterStep]

theorem run_hexEscape {value : Nat} (small : value < 0x100) (read : List Nat) (rest : List Char) :
    (string read).run found
        ('\\' :: 'u' :: '0' :: '0' :: hexDigit (value / 16) :: hexDigit (value % 16) :: rest) =
      (string (value :: read)).run found rest := by
  have high : (hex read 2 0).step (hexDigit (value / 16)) =
      some ([], hex read 1 (value / 16)) := by
    rw [step, hexValue?_hexDigit (by omega)]
    simp
  have low : (hex read 1 (value / 16)).step (hexDigit (value % 16)) =
      some ([], string (value :: read)) := by
    rw [step, hexValue?_hexDigit (by omega)]
    simp [Nat.div_add_mod]
  -- The backslash, the letter and the two zeros lead to the digits that count.
  change (hex read 2 0).run found _ = _
  rw [run_silent found high, run_silent found low]

/-- A character of a text is read as its code point. -/
theorem run_escape (c : Char) (read : List Nat) (rest : List Char) :
    (string read).run found (Json.escape c ++ rest) =
      (string (c.toNat :: read)).run found rest := by
  unfold Json.escape
  split_ifs with quote backslash backspace formFeed lineFeed carriageReturn tab control
  · exact run_letterEscape found '"' c (congrArg some quote.symm) read rest
  · exact run_letterEscape found '\\' c (congrArg some backslash.symm) read rest
  · exact run_letterEscape found 'b' c (congrArg some backspace.symm) read rest
  · exact run_letterEscape found 'f' c (congrArg some formFeed.symm) read rest
  · exact run_letterEscape found 'n' c (congrArg some lineFeed.symm) read rest
  · exact run_letterEscape found 'r' c (congrArg some carriageReturn.symm) read rest
  · exact run_letterEscape found 't' c (congrArg some tab.symm) read rest
  · exact run_hexEscape found (by omega) read rest
  · have kept : (string read).step c = some ([], string (c.toNat :: read)) := by
      simp [step, quote, backslash, control]
    exact run_silent found kept rest

/-- The escapes of characters are scanned as these characters. -/
theorem run_escapes (chars : List Char) (read : List Nat) (rest : List Char) :
    (string read).run found (chars.flatMap Json.escape ++ rest) =
      (string ((chars.map Char.toNat).reverse ++ read)).run found rest := by
  induction chars generalizing read with
  | nil => rfl
  | cons c chars ih =>
      rw [List.flatMap_cons, List.append_assoc, run_escape, ih, List.map_cons, List.reverse_cons,
        List.append_assoc, List.singleton_append]

/-- A string literal is read as its content. -/
theorem run_quote (content : String) (rest : List Char) :
    outside.run found (quote content rest) =
      outside.run (.string (some content) :: found) rest := by
  have closes : (string (content.toList.map Char.toNat).reverse).step '"' =
      some ([.string (some content)], outside) := by
    simp [step, content?_toList]
  change (string []).run found (content.toList.flatMap Json.escape ++ '"' :: rest) = _
  rw [run_escapes, List.append_nil, run_token found closes]

end Scan

/-! ## The tokens of a value -/

mutual

/-- A value that reports are made of: every literal denotes something, and every number is a natural
of one machine word. -/
def isPlain : Json → Bool
  | .number (.natural value) => value < wordBound
  | .number _ => false
  | .unreadable => false
  | .list items => isPlainItems items
  | .object members => isPlainMembers members
  | _ => true

def isPlainItems : List Json → Bool
  | [] => true
  | item :: rest => item.isPlain && isPlainItems rest

def isPlainMembers : List (String × Json) → Bool
  | [] => true
  | (_, value) :: rest => value.isPlain && isPlainMembers rest

end

/-- A list of plain records is plain. -/
theorem isPlain_records {α : Type} {record : α → Json} {items : List α}
    (each : ∀ item ∈ items, (record item).isPlain = true) :
    (Json.list (items.map record)).isPlain = true := by
  rw [isPlain]
  induction items with
  | nil => rfl
  | cons item items ih =>
      have first := each item List.mem_cons_self
      have later := ih fun other member => each other (List.mem_cons_of_mem item member)
      rw [List.map_cons, isPlainItems, first, later]
      rfl

mutual

def tokens : Json → List Token
  | .list [] => [.listOpen, .listClose]
  | .list (item :: items) => .listOpen :: item.tokens ++ itemsTokens items ++ [.listClose]
  | .object [] => [.objectOpen, .objectClose]
  | .object ((key, value) :: members) =>
      .objectOpen :: .string (some key) :: .colon :: value.tokens ++ membersTokens members ++
        [.objectClose]
  | .text content => [.string (some content)]
  | value => [.scalar value]

def itemsTokens : List Json → List Token
  | [] => []
  | item :: items => .comma :: item.tokens ++ itemsTokens items

def membersTokens : List (String × Json) → List Token
  | [] => []
  | (key, value) :: members =>
      .comma :: .string (some key) :: .colon :: value.tokens ++ membersTokens members

end

namespace Layout

/-- Only blanks stand between the tokens. -/
structure IsBlank (layout : Layout) : Prop where
  lineBreak : ∀ depth, ∀ c ∈ layout.lineBreak depth, isBlank c = true
  afterColon : ∀ c ∈ layout.afterColon, isBlank c = true

theorem isBlank_pretty : pretty.IsBlank where
  lineBreak := by
    intro depth c member
    rcases List.mem_cons.1 member with rfl | later
    · rfl
    · rw [List.eq_of_mem_replicate later]
      rfl
  afterColon := by
    intro c member
    rw [List.mem_singleton.1 member]
    rfl

open Scan

variable {layout : Layout} (blank : layout.IsBlank)

include blank in
theorem scan_key (found : List Token) (key : String) (rest : List Char) :
    outside.run found (layout.keyChars key rest) =
      outside.run (.colon :: .string (some key) :: found) rest := by
  rw [keyChars, run_quote, List.cons_append, run_token _ rfl, run_blanks _ blank.afterColon]

theorem endsWords_itemsChars (depth : Nat) (items : List Json) {rest : List Char}
    (ends : EndsWords rest) : EndsWords (layout.itemsChars depth items rest) := by
  cases items with
  | nil => exact ends
  | cons item items => exact endsWords_cons rfl _

theorem endsWords_membersChars (depth : Nat) (members : List (String × Json)) {rest : List Char}
    (ends : EndsWords rest) : EndsWords (layout.membersChars depth members rest) := by
  cases members with
  | nil => exact ends
  | cons member members => exact endsWords_cons rfl _

include blank

mutual

/-- Scanning the text of a value finds its tokens. -/
theorem scan_chars : ∀ (value : Json), value.isPlain = true →
    ∀ (depth : Nat) (found : List Token) (rest : List Char), EndsWords rest →
      outside.run found (layout.chars depth value rest) =
        outside.run (value.tokens.reverse ++ found) rest
  | .null, _, _, found, _, ends =>
      run_word found (List.cons_ne_nil 'n' ['u', 'l', 'l'])
        (by simp [endsWord, Json.isBlank, punctuation?]) rfl ends
  | .bool true, _, _, found, _, ends =>
      run_word found (List.cons_ne_nil 't' ['r', 'u', 'e'])
        (by simp [endsWord, Json.isBlank, punctuation?]) rfl ends
  | .bool false, _, _, found, _, ends =>
      run_word found (List.cons_ne_nil 'f' ['a', 'l', 's', 'e'])
        (by simp [endsWord, Json.isBlank, punctuation?]) rfl ends
  | .number (.natural value), plain, _, found, _, ends => by
      have bounded : value < wordBound := by simpa [isPlain] using plain
      exact run_word found Nat.toDigits_ne_nil
        (fun c member => endsWord_of_isDigit (isDigit_of_mem_toDigits member))
        (word?_toDigits bounded) ends
  | .text content, _, _, found, rest, _ => run_quote found content rest
  | .list [], _, _, found, rest, _ => by
      rw [chars, run_token _ rfl, run_token _ rfl]
      rfl
  | .list (item :: items), plain, depth, found, rest, ends => by
      obtain ⟨first, later⟩ : item.isPlain = true ∧ isPlainItems items = true := by
        simpa [isPlain, isPlainItems] using plain
      have closing : EndsWords (layout.lineBreak depth ++ ']' :: rest) :=
        endsWords_append (blank.lineBreak depth) (endsWords_cons rfl rest)
      rw [chars, List.cons_append, run_token _ rfl, run_blanks _ (blank.lineBreak _),
        scan_chars item first _ _ _ (endsWords_itemsChars _ items closing),
        scan_itemsChars items later _ _ _ closing, run_blanks _ (blank.lineBreak _),
        run_token _ rfl]
      simp [tokens]
  | .object [], _, _, found, rest, _ => by
      rw [chars, run_token _ rfl, run_token _ rfl]
      rfl
  | .object ((key, value) :: members), plain, depth, found, rest, ends => by
      obtain ⟨first, later⟩ : value.isPlain = true ∧ isPlainMembers members = true := by
        simpa [isPlain, isPlainMembers] using plain
      have closing : EndsWords (layout.lineBreak depth ++ '\x7d' :: rest) :=
        endsWords_append (blank.lineBreak depth) (endsWords_cons rfl rest)
      rw [chars, List.cons_append, run_token _ rfl, run_blanks _ (blank.lineBreak _),
        scan_key blank, scan_chars value first _ _ _ (endsWords_membersChars _ members closing),
        scan_membersChars members later _ _ _ closing, run_blanks _ (blank.lineBreak _),
        run_token _ rfl]
      simp [tokens]

theorem scan_itemsChars : ∀ (items : List Json), isPlainItems items = true →
    ∀ (depth : Nat) (found : List Token) (rest : List Char), EndsWords rest →
      outside.run found (layout.itemsChars depth items rest) =
        outside.run ((itemsTokens items).reverse ++ found) rest
  | [], _, _, _, _, _ => rfl
  | item :: items, plain, depth, found, rest, ends => by
      obtain ⟨first, later⟩ : item.isPlain = true ∧ isPlainItems items = true := by
        simpa [isPlainItems] using plain
      rw [itemsChars, List.cons_append, run_token _ rfl, run_blanks _ (blank.lineBreak _),
        scan_chars item first _ _ _ (endsWords_itemsChars _ items ends),
        scan_itemsChars items later _ _ _ ends]
      simp [itemsTokens]

theorem scan_membersChars : ∀ (members : List (String × Json)), isPlainMembers members = true →
    ∀ (depth : Nat) (found : List Token) (rest : List Char), EndsWords rest →
      outside.run found (layout.membersChars depth members rest) =
        outside.run ((membersTokens members).reverse ++ found) rest
  | [], _, _, _, _, _ => rfl
  | (key, value) :: members, plain, depth, found, rest, ends => by
      obtain ⟨first, later⟩ : value.isPlain = true ∧ isPlainMembers members = true := by
        simpa [isPlainMembers] using plain
      rw [membersChars, List.cons_append, run_token _ rfl, run_blanks _ (blank.lineBreak _),
        scan_key blank, scan_chars value first _ _ _ (endsWords_membersChars _ members ends),
        scan_membersChars members later _ _ _ ends]
      simp [membersTokens]

end

end Layout

/-! ## Building -/

namespace Builder

/-- A member as the builder keeps it, with a key that denotes a text. -/
def keyed (member : String × Json) : Option String × Json :=
  (some member.1, member.2)

theorem ofMembers_keyed (members : List (String × Json)) :
    ofMembers (members.map keyed) = .object members := by
  rw [ofMembers, mapM_map_of_inverse]
  intro member
  rfl

/-- The text of a value does not begin like the end of a list. -/
theorem tokens_head (value : Json) :
    ∃ token rest, value.tokens = token :: rest ∧ token ≠ .listClose := by
  rcases value with _ | _ | _ | _ | (_ | ⟨item, items⟩) | (_ | ⟨⟨key, item⟩, members⟩) | _
  all_goals exact ⟨_, _, rfl, by simp⟩

/-- The first item of a list is read like any other. -/
theorem run_firstItem (value : Json) (stack : List Frame) (rest : List Token) :
    (firstItem stack).run (value.tokens ++ rest) =
      (Builder.value (.list [] :: stack)).run (value.tokens ++ rest) := by
  obtain ⟨token, others, starts, other⟩ := tokens_head value
  have same : (firstItem stack).step token = (Builder.value (.list [] :: stack)).step token := by
    cases token with
    | listClose => exact absurd rfl other
    | _ => rfl
  rw [starts, List.cons_append, run, run, same]

mutual

/-- Building from the tokens of a value arrives at the value. -/
theorem run_tokens : ∀ (value : Json) (stack : List Frame) (rest : List Token),
    (Builder.value stack).run (value.tokens ++ rest) = (after value stack).run rest
  | .null, _, _ => rfl
  | .bool _, _, _ => rfl
  | .number _, _, _ => rfl
  | .text _, _, _ => rfl
  | .unreadable, _, _ => rfl
  | .list [], _, _ => rfl
  | .list (item :: items), stack, rest => by
      rw [tokens, List.append_assoc, List.append_assoc]
      change (firstItem stack).run (item.tokens ++ _) = _
      rw [run_firstItem, run_tokens item]
      exact run_itemsTokens items [] item stack rest
  | .object [], _, _ => rfl
  | .object ((key, item) :: members), stack, rest => by
      rw [tokens, List.append_assoc, List.append_assoc]
      change (Builder.value (.object [] (some key) :: stack)).run (item.tokens ++ _) = _
      rw [run_tokens item]
      exact run_membersTokens members [] key item stack rest

theorem run_itemsTokens : ∀ (items before : List Json) (item : Json) (stack : List Frame)
    (rest : List Token),
    (after item (.list before.reverse :: stack)).run (itemsTokens items ++ .listClose :: rest) =
      (after (.list (before ++ item :: items)) stack).run rest
  | [], before, item, stack, rest => by
      rw [itemsTokens, List.nil_append, run]
      simp [step]
  | next :: items, before, item, stack, rest => by
      rw [itemsTokens, List.append_assoc]
      change (Builder.value (.list (item :: before.reverse) :: stack)).run (next.tokens ++ _) = _
      rw [run_tokens next]
      have later := run_itemsTokens items (before ++ [item]) next stack rest
      simpa using later

theorem run_membersTokens : ∀ (members before : List (String × Json)) (key : String) (item : Json)
    (stack : List Frame) (rest : List Token),
    (after item (.object (before.map keyed).reverse (some key) :: stack)).run
        (membersTokens members ++ .objectClose :: rest) =
      (after (.object (before ++ (key, item) :: members)) stack).run rest
  | [], before, key, item, stack, rest => by
      have all := ofMembers_keyed (before ++ [(key, item)])
      rw [membersTokens, List.nil_append, run]
      simp only [step]
      rw [← all]
      simp [keyed]
  | (next, nextItem) :: members, before, key, item, stack, rest => by
      rw [membersTokens, List.append_assoc]
      change (Builder.value (.object ((some key, item) :: (before.map keyed).reverse) (some next) ::
        stack)).run (nextItem.tokens ++ _) = _
      rw [run_tokens nextItem]
      have later := run_membersTokens members (before ++ [(key, item)]) next nextItem stack rest
      simpa [keyed] using later

end

/-- The tokens of a value build it. -/
theorem build?_tokens (value : Json) : build? value.tokens = some value := by
  have built := run_tokens value [] []
  rw [List.append_nil] at built
  rw [build?, built]
  rfl

end Builder

/-- The text of a plain value is read as that value. -/
theorem read?_pretty {value : Json} (plain : value.isPlain = true) :
    read? value.pretty = some value := by
  have scanned : tokens? (Layout.pretty.chars 0 value []) = some value.tokens := by
    rw [tokens?, Layout.scan_chars Layout.isBlank_pretty value plain 0 [] [] Scan.endsWords_nil]
    simp [Scan.run, Scan.finish]
  rw [read?, pretty, String.toList_ofList, scanned, Option.bind_some, Builder.build?_tokens]

end Json

end CallDepth
