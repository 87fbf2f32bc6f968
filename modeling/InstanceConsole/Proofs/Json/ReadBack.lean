import InstanceConsole.Proofs.Json.Literals

/-!
# JSON documents read back

`read` undoes `compact` and `pretty` for every document. The induction is on the document. It runs
inside any arrays and objects that have begun, so its statement is about the reader's states: a
text *reads as* a value when it takes the reader from where a value may begin to where that value
has been read.
-/

set_option autoImplicit false

namespace InstanceConsole.Json

/-! ## Feeding several characters -/

/-- The state after some more characters, if they may stand there. -/
def Reader.feedAll (r : Reader) (cs : List Char) : Option Reader := cs.foldlM feed r

namespace Reader

theorem feedAll_nil (r : Reader) : r.feedAll [] = some r := rfl

theorem feedAll_cons (r : Reader) (c : Char) (cs : List Char) :
    r.feedAll (c :: cs) = (r.feed c).bind (·.feedAll cs) := by
  rw [feedAll, List.foldlM_cons]
  rfl

theorem feedAll_append (r : Reader) (front cs : List Char) :
    r.feedAll (front ++ cs) = (r.feedAll front).bind (·.feedAll cs) := by
  rw [feedAll, List.foldlM_append]
  rfl

theorem feedAll_singleton (r : Reader) (c : Char) : r.feedAll [c] = r.feed c := by
  rw [feedAll_cons]
  cases r.feed c <;> rfl

/-! ## Where a value has been read

A name or number has no end of its own: after its last character the reader still waits for more
of it. `EndsAs` takes such a state for the one after the end. -/

/-- One state behaves like another in which a value has been read, unless the name or number that
it stands in goes on. -/
structure EndsAs (r s : Reader) : Prop where
  feed : ∀ c, isBareChar c = false → r.feed c = s.feed c
  finish : r.finish = s.finish

theorem EndsAs.refl (r : Reader) : EndsAs r r := ⟨fun _ _ => rfl, rfl⟩

/-- After a value the reader expects what may follow one. -/
theorem feed_of_complete {value : Json} {stack : List Frame} {s : Reader}
    (h : complete value stack = some s) (c : Char) : s.feed c = s.afterValue c := by
  cases stack with
  | nil =>
      obtain rfl := Option.some.inj h
      rfl
  | cons frame stack =>
      cases frame with
      | array before =>
          obtain rfl := Option.some.inj h
          rfl
      | object before => exact absurd h (by simp [complete])
      | member before key =>
          obtain rfl := Option.some.inj h
          rfl

end Reader

/-- A text takes the reader from where a value may begin to where that value has been read. -/
def ReadsAs (cs : List Char) (value : Json) : Prop :=
  ∀ mayClose stack s, Reader.complete value stack = some s →
    ∃ r, Reader.feedAll ⟨.value mayClose, stack⟩ cs = some r ∧ r.EndsAs s

/-- A text takes the reader from where a key may begin to where that member has been read. -/
def ReadsAsMember (cs : List Char) (member : JsonText × Json) : Prop :=
  ∀ mayClose before stack, ∃ r,
    Reader.feedAll ⟨.key mayClose, .object before :: stack⟩ cs = some r ∧
      r.EndsAs ⟨.separator, .object (member :: before) :: stack⟩

open Reader

/-! ## Bare words -/

theorem isGap_of_isBareChar {c : Char} (h : isBareChar c = true) :
    isGap c = false ∧ c ≠ '"' ∧ c ≠ '[' ∧ c ≠ '\x7b' ∧ c ≠ ']' := by
  refine ⟨?_, ?_, ?_, ?_, ?_⟩
  · rw [Bool.eq_false_iff]
    intro hgap
    simp only [isGap, Bool.or_eq_true, decide_eq_true_eq] at hgap
    rcases hgap with ((rfl | rfl) | rfl) | rfl <;> revert h <;> decide
  all_goals
    rintro rfl
    revert h
    decide

theorem feedAll_bare {cs : List Char} (h : ∀ c ∈ cs, isBareChar c = true) (before : List Char)
    (stack : List Frame) :
    feedAll ⟨.bare before, stack⟩ cs = some ⟨.bare (cs.reverse ++ before), stack⟩ := by
  induction cs generalizing before with
  | nil => rfl
  | cons c cs ih =>
      rw [feedAll_cons, show feed ⟨.bare before, stack⟩ c = some ⟨.bare (c :: before), stack⟩ by
        simp [feed, h c (by simp)], Option.bind_some, ih (fun d hd => h d (by simp [hd]))]
      simp

/-- A name or number that is still open ends as its value does. -/
theorem endsAs_bare {before : List Char} {value : Json} {stack : List Frame} {s : Reader}
    (hword : bareWord? before.reverse = some value) (hs : complete value stack = some s) :
    EndsAs ⟨.bare before, stack⟩ s := by
  constructor
  · intro c hc
    rw [feed_of_complete hs c]
    simp only [Reader.feed, hc, Bool.false_eq_true, if_false, hword, Option.bind_some, hs]
  · -- The text may end here only if nothing holds the value.
    cases stack with
    | nil =>
        obtain rfl := Option.some.inj hs
        exact hword
    | cons frame stack =>
        cases frame with
        | array before =>
            obtain rfl := Option.some.inj hs
            rfl
        | object before => exact absurd hs (by simp [complete])
        | member before key =>
            obtain rfl := Option.some.inj hs
            rfl

theorem readsAs_bareWord {cs : List Char} {value : Json} (hne : cs ≠ [])
    (hbare : ∀ c ∈ cs, isBareChar c = true) (hword : bareWord? cs = some value) :
    ReadsAs cs value := by
  intro mayClose stack s hs
  obtain ⟨c, cs, rfl⟩ := List.exists_cons_of_ne_nil hne
  have hc : isBareChar c = true := hbare c (by simp)
  obtain ⟨hgap, hquote, hbracket, hbrace, hclose⟩ := isGap_of_isBareChar hc
  have hbegin : feed ⟨.value mayClose, stack⟩ c = some ⟨.bare [c], stack⟩ := by
    simp [feed, beginValue, hgap, hquote, hbracket, hbrace, hclose, hc]
  have hreverse : (cs.reverse ++ [c]).reverse = c :: cs := by simp
  refine ⟨⟨.bare (cs.reverse ++ [c]), stack⟩, ?_, endsAs_bare (hreverse ▸ hword) hs⟩
  rw [feedAll_cons, hbegin, Option.bind_some, feedAll_bare fun d hd => hbare d (by simp [hd])]

/-! ## String literals -/

/-- The escape of a character below U+0020 that has no letter: four digits, the first two zero. -/
theorem feedAll_hexEscape (isKey : Bool) (before : List Piece) (stack : List Frame) {c : Char}
    (hc : c.toNat < 0x20) :
    feedAll ⟨.text isKey before, stack⟩
        ['\\', 'u', '0', '0', Numeral.hexDigit (c.toNat / 16), Numeral.hexDigit (c.toNat % 16)] =
      some ⟨.text isKey (.char c :: before), stack⟩ := by
  have hhigh := Numeral.hexDigit?_hexDigit (c.toNat / 16) (by omega)
  have hlow := Numeral.hexDigit?_hexDigit (c.toNat % 16) (by omega)
  have hcode : Piece.ofCode c.toNat = .char c := by
    rw [Piece.ofCode, if_neg (by omega), Char.ofNat_toNat]
  have hfront : feedAll ⟨.text isKey before, stack⟩ ['\\', 'u', '0', '0'] =
      some ⟨.hex isKey before 2 0, stack⟩ := rfl
  have hdigits : feedAll ⟨.hex isKey before 2 0, stack⟩
      [Numeral.hexDigit (c.toNat / 16), Numeral.hexDigit (c.toNat % 16)] =
        some ⟨.text isKey (.char c :: before), stack⟩ := by
    simp only [feedAll_cons, feedAll_nil, feed, hhigh, hlow, Option.map_some, Option.bind_some]
    simp only [show ¬ 2 ≤ 1 by omega, if_false, if_true, show 2 - 1 ≤ 1 by omega, Nat.mul_zero,
      Nat.zero_add, show 16 * (c.toNat / 16) + c.toNat % 16 = c.toNat by omega, hcode,
      Option.bind_some]
  exact (feedAll_append _ ['\\', 'u', '0', '0'] _).trans (hfront ▸ hdigits)

/-- What stands for a character inside a literal is read as that character. -/
theorem feedAll_escapeChar (isKey : Bool) (before : List Piece) (stack : List Frame) (c : Char) :
    feedAll ⟨.text isKey before, stack⟩ (escapeChar c) =
      some ⟨.text isKey (.char c :: before), stack⟩ := by
  -- The characters that are escaped by a letter, or by themselves.
  by_cases h1 : c = '"'
  · subst h1; rfl
  by_cases h2 : c = '\\'
  · subst h2; rfl
  by_cases h3 : c = '\x08'
  · subst h3; rfl
  by_cases h4 : c = '\x0c'
  · subst h4; rfl
  by_cases h5 : c = '\n'
  · subst h5; rfl
  by_cases h6 : c = '\r'
  · subst h6; rfl
  by_cases h7 : c = '\t'
  · subst h7; rfl
  by_cases h8 : c.toNat < 0x20
  · have hescape : escapeChar c = ['\\', 'u', '0', '0', Numeral.hexDigit (c.toNat / 16),
        Numeral.hexDigit (c.toNat % 16)] := by
      simp [escapeChar, h1, h2, h3, h4, h5, h6, h7, h8]
    rw [hescape]
    exact feedAll_hexEscape isKey before stack h8
  · have hescape : escapeChar c = [c] := by
      simp [escapeChar, h1, h2, h3, h4, h5, h6, h7, h8]
    rw [hescape, feedAll_singleton]
    simp [feed, h1, h2, h8]

theorem feedAll_flatMap_escapeChar (isKey : Bool) (before : List Piece) (stack : List Frame)
    (cs : List Char) :
    feedAll ⟨.text isKey before, stack⟩ (cs.flatMap escapeChar) =
      some ⟨.text isKey ((cs.map .char).reverse ++ before), stack⟩ := by
  induction cs generalizing before with
  | nil => rfl
  | cons c cs ih =>
      rw [List.flatMap_cons, feedAll_append, feedAll_escapeChar, Option.bind_some, ih]
      simp

theorem joinPieces_map_char (cs : List Char) : joinPieces (cs.map .char) = some cs := by
  induction cs with
  | nil => rfl
  | cons c cs ih => rw [List.map_cons, joinPieces, ih, Option.map_some]

/-- The rest of a literal, once its first quote has been read. -/
theorem feedAll_tail_writeText (isKey : Bool) (stack : List Frame) (text : JsonText) :
    feedAll ⟨.text isKey [], stack⟩ (writeText text).tail = endText isKey text stack := by
  cases text with
  | none =>
      -- Half of a surrogate pair, which spoils the literal.
      have hhalf : feedAll ⟨.text isKey [], stack⟩ ['\\', 'u', 'd', '8', '0', '0'] =
          some ⟨.text isKey [.surrogate 0xD800], stack⟩ := rfl
      show feedAll ⟨.text isKey [], stack⟩ (['\\', 'u', 'd', '8', '0', '0'] ++ ['"']) = _
      rw [feedAll_append, hhalf, Option.bind_some, feedAll_singleton]
      rfl
  | some s =>
      have hpieces : textOfPieces ((s.toList.map .char).reverse ++ []) = some s := by
        rw [textOfPieces, List.append_nil, List.reverse_reverse, joinPieces_map_char,
          Option.map_some, String.ofList_toList]
      rw [writeText, List.cons_append, List.tail_cons, feedAll_append, feedAll_flatMap_escapeChar,
        Option.bind_some, feedAll_singleton]
      simp only [feed, if_true, hpieces]

theorem writeText_eq_cons (text : JsonText) : writeText text = '"' :: (writeText text).tail := by
  cases text <;> rfl

theorem readsAs_writeText (text : JsonText) : ReadsAs (writeText text) (.str text) := by
  intro mayClose stack s hs
  refine ⟨s, ?_, EndsAs.refl s⟩
  calc feedAll ⟨.value mayClose, stack⟩ (writeText text)
      = feedAll ⟨.text false [], stack⟩ (writeText text).tail := by
        rw [writeText_eq_cons]
        rfl
    _ = endText false text stack := feedAll_tail_writeText false stack text
    _ = some s := hs

theorem feedAll_key (mayClose : Bool) (before : List (JsonText × Json)) (stack : List Frame)
    (key : JsonText) :
    feedAll ⟨.key mayClose, .object before :: stack⟩ (writeText key) =
      some ⟨.colon, .member before key :: stack⟩ := by
  calc feedAll ⟨.key mayClose, .object before :: stack⟩ (writeText key)
      = feedAll ⟨.text true [], .object before :: stack⟩ (writeText key).tail := by
        rw [writeText_eq_cons]
        rfl
    _ = endText true key (.object before :: stack) := feedAll_tail_writeText true _ key
    _ = some ⟨.colon, .member before key :: stack⟩ := rfl

/-! ## Gaps -/

theorem isBareChar_of_isGap {c : Char} (h : isGap c = true) : isBareChar c = false := by
  rw [Bool.eq_false_iff]
  intro hbare
  rw [(isGap_of_isBareChar hbare).1] at h
  exact absurd h (by decide)

/-- A gap goes by where the reader stays as it is. -/
theorem Reader.feedAll_gap_append {r : Reader} (hstays : ∀ c, isGap c = true → r.feed c = some r)
    {gap : List Char} (hgap : ∀ c ∈ gap, isGap c = true) (cs : List Char) :
    r.feedAll (gap ++ cs) = r.feedAll cs := by
  induction gap with
  | nil => rfl
  | cons c gap ih =>
      rw [List.cons_append, feedAll_cons, hstays c (hgap c (by simp)), Option.bind_some]
      exact ih fun d hd => hgap d (by simp [hd])

theorem ReadsAs.gap_append {gap cs : List Char} {value : Json} (h : ReadsAs cs value)
    (hgap : ∀ c ∈ gap, isGap c = true) : ReadsAs (gap ++ cs) value := by
  intro mayClose stack s hs
  obtain ⟨r, hr, hends⟩ := h mayClose stack s hs
  refine ⟨r, ?_, hends⟩
  have hstays : ∀ c, isGap c = true →
      feed ⟨.value mayClose, stack⟩ c = some ⟨.value mayClose, stack⟩ := by
    intro c hc
    simp [feed, beginValue, hc]
  rw [feedAll_gap_append hstays hgap, hr]

theorem ReadsAsMember.gap_append {gap cs : List Char} {member : JsonText × Json}
    (h : ReadsAsMember cs member) (hgap : ∀ c ∈ gap, isGap c = true) :
    ReadsAsMember (gap ++ cs) member := by
  intro mayClose before stack
  obtain ⟨r, hr, hends⟩ := h mayClose before stack
  refine ⟨r, ?_, hends⟩
  have hstays : ∀ c, isGap c = true → feed ⟨.key mayClose, .object before :: stack⟩ c =
      some ⟨.key mayClose, .object before :: stack⟩ := by
    intro c hc
    simp [feed, beginKey, hc]
  rw [feedAll_gap_append hstays hgap, hr]

/-- A gap after an item or member, and the mark that ends the gap. -/
theorem Reader.EndsAs.feedAll_gap {r : Reader} {stack : List Frame}
    (h : EndsAs r ⟨.separator, stack⟩) {gap : List Char} (hgap : ∀ c ∈ gap, isGap c = true)
    {mark : Char} (hmark : isBareChar mark = false) :
    r.feedAll (gap ++ [mark]) = afterValue ⟨.separator, stack⟩ mark := by
  have hstays : ∀ c, isGap c = true →
      Reader.feed ⟨.separator, stack⟩ c = some ⟨.separator, stack⟩ := fun _ hc => if_pos hc
  cases gap with
  | nil =>
      rw [List.nil_append, feedAll_singleton, h.feed mark hmark]
      rfl
  | cons c gap =>
      -- The first character of the gap ends a name or number that is still open.
      have hc : isGap c = true := hgap c (by simp)
      rw [List.cons_append, feedAll_cons, h.feed c (isBareChar_of_isGap hc), hstays c hc,
        Option.bind_some, feedAll_gap_append hstays fun d hd => hgap d (by simp [hd]),
        feedAll_singleton]
      rfl

/-! ## Arrays and objects -/

/-- The texts of some things with a comma between them. -/
def commaSeparated {α : Type} (write : α → List Char) : List α → List Char
  | [] => []
  | [a] => write a
  | a :: as => write a ++ ',' :: commaSeparated write as

theorem commaSeparated_cons_cons {α : Type} (write : α → List Char) (a b : α) (as : List α) :
    commaSeparated write (a :: b :: as) = write a ++ ',' :: commaSeparated write (b :: as) := rfl

/-- A text that is made up in the same way is the same text. -/
theorem eq_commaSeparated {α : Type} {text : List α → List Char} {write : α → List Char}
    (hnil : text [] = []) (hone : ∀ a, text [a] = write a)
    (hmore : ∀ a b as, text (a :: b :: as) = write a ++ ',' :: text (b :: as)) (as : List α) :
    text as = commaSeparated write as := by
  induction as with
  | nil => exact hnil
  | cons a as ih =>
      cases as with
      | nil => exact hone a
      | cons b as => rw [hmore, ih, commaSeparated_cons_cons]

/-- Items of an array, or members of an object. Before each the reader is in a state `start`, and
after each in a state `stop`, both with what came before, last first. -/
theorem feedAll_commaSeparated {α : Type} {write : α → List Char}
    (start : Bool → List α → Reader) (stop : List α → Reader) {as : List α} (hne : as ≠ [])
    (hread : ∀ a ∈ as, ∀ mayClose before, ∃ r,
      (start mayClose before).feedAll (write a) = some r ∧ r.EndsAs (stop (a :: before)))
    (hcomma : ∀ before, (stop before).feed ',' = some (start false before)) (mayClose : Bool)
    (before : List α) :
    ∃ r, (start mayClose before).feedAll (commaSeparated write as) = some r ∧
      r.EndsAs (stop (as.reverse ++ before)) := by
  induction as generalizing mayClose before with
  | nil => exact absurd rfl hne
  | cons a as ih =>
      obtain ⟨r, hr, hends⟩ := hread a (by simp) mayClose before
      cases as with
      | nil => exact ⟨r, hr, hends⟩
      | cons b as =>
          -- The comma ends this one, and nothing but another one may follow it.
          have hnext : r.feed ',' = some (start false (a :: before)) :=
            (hends.feed ',' (by decide)).trans (hcomma _)
          obtain ⟨r', hr', hends'⟩ := ih (by simp) (fun c hc => hread c (by simp [hc])) false
            (a :: before)
          refine ⟨r', ?_, by simpa using hends'⟩
          rw [commaSeparated_cons_cons, feedAll_append, hr, Option.bind_some, feedAll_cons, hnext,
            Option.bind_some, hr']

theorem readsAs_arr_nil : ReadsAs ['[', ']'] (.arr []) := by
  intro mayClose stack s hs
  refine ⟨s, ?_, EndsAs.refl s⟩
  show feedAll ⟨.value true, .array [] :: stack⟩ [']'] = some s
  rw [feedAll_singleton]
  exact hs

theorem readsAs_obj_nil : ReadsAs ['\x7b', '\x7d'] (.obj []) := by
  intro mayClose stack s hs
  refine ⟨s, ?_, EndsAs.refl s⟩
  show feedAll ⟨.key true, .object [] :: stack⟩ ['\x7d'] = some s
  rw [feedAll_singleton]
  exact hs

theorem readsAs_arr (write : Json → List Char) {items : List Json} (hne : items ≠ [])
    (h : ∀ item ∈ items, ReadsAs (write item) item) (gap : List Char)
    (hgap : ∀ c ∈ gap, isGap c = true) :
    ReadsAs ('[' :: commaSeparated write items ++ gap ++ [']']) (.arr items) := by
  intro mayClose stack s hs
  obtain ⟨r, hr, hends⟩ := feedAll_commaSeparated
    (fun mayClose before => ⟨.value mayClose, .array before :: stack⟩)
    (fun before => ⟨.separator, .array before :: stack⟩) hne
    (fun item hitem mayClose before => h item hitem mayClose (.array before :: stack) _ rfl)
    (fun _ => rfl) true []
  refine ⟨s, ?_, EndsAs.refl s⟩
  calc feedAll ⟨.value mayClose, stack⟩ ('[' :: commaSeparated write items ++ gap ++ [']'])
      = feedAll ⟨.value true, .array [] :: stack⟩
          (commaSeparated write items ++ (gap ++ [']'])) := by
        rw [List.append_assoc]
        rfl
    _ = r.feedAll (gap ++ [']']) := by rw [feedAll_append, hr, Option.bind_some]
    _ = afterValue ⟨.separator, .array (items.reverse ++ []) :: stack⟩ ']' :=
        hends.feedAll_gap hgap (by decide)
    _ = complete (.arr (items.reverse ++ []).reverse) stack := rfl
    _ = some s := by rw [List.append_nil, List.reverse_reverse, hs]

theorem readsAs_obj (write : JsonText × Json → List Char) {members : List (JsonText × Json)}
    (hne : members ≠ []) (h : ∀ member ∈ members, ReadsAsMember (write member) member)
    (gap : List Char) (hgap : ∀ c ∈ gap, isGap c = true) :
    ReadsAs ('\x7b' :: commaSeparated write members ++ gap ++ ['\x7d']) (.obj members) := by
  intro mayClose stack s hs
  obtain ⟨r, hr, hends⟩ := feedAll_commaSeparated
    (fun mayClose before => ⟨.key mayClose, .object before :: stack⟩)
    (fun before => ⟨.separator, .object before :: stack⟩) hne
    (fun member hmember mayClose before => h member hmember mayClose before stack)
    (fun _ => rfl) true []
  refine ⟨s, ?_, EndsAs.refl s⟩
  calc feedAll ⟨.value mayClose, stack⟩ ('\x7b' :: commaSeparated write members ++ gap ++ ['\x7d'])
      = feedAll ⟨.key true, .object [] :: stack⟩
          (commaSeparated write members ++ (gap ++ ['\x7d'])) := by
        rw [List.append_assoc]
        rfl
    _ = r.feedAll (gap ++ ['\x7d']) := by rw [feedAll_append, hr, Option.bind_some]
    _ = afterValue ⟨.separator, .object (members.reverse ++ []) :: stack⟩ '\x7d' :=
        hends.feedAll_gap hgap (by decide)
    _ = complete (.obj (members.reverse ++ []).reverse) stack := rfl
    _ = some s := by rw [List.append_nil, List.reverse_reverse, hs]

/-- A key, a colon and a value are a member; a gap may stand after the colon. -/
theorem ReadsAs.member {cs : List Char} {value : Json} (h : ReadsAs cs value) (key : JsonText) :
    ReadsAsMember (writeText key ++ ':' :: cs) (key, value) := by
  intro mayClose before stack
  obtain ⟨r, hr, hends⟩ := h false (.member before key :: stack) _ rfl
  refine ⟨r, ?_, hends⟩
  rw [feedAll_append, feedAll_key, Option.bind_some]
  show feedAll ⟨.value false, .member before key :: stack⟩ cs = some r
  exact hr

/-! ## Whole documents -/

theorem readsAs_null : ReadsAs writeNull .null :=
  readsAs_bareWord (by decide) (List.all_eq_true.mp rfl) rfl

theorem readsAs_writeBool (b : Bool) : ReadsAs (writeBool b) (.bool b) := by
  cases b with
  | false => exact readsAs_bareWord (by decide) (List.all_eq_true.mp rfl) rfl
  | true => exact readsAs_bareWord (by decide) (List.all_eq_true.mp rfl) rfl

theorem readsAs_writeNumber (n : JsonNumber) : ReadsAs (writeNumber n) (.num n) :=
  readsAs_bareWord (writeNumber_ne_nil n) (fun _ => isBareChar_of_mem_writeNumber)
    (bareWord?_writeNumber n)

theorem read_of_readsAs {cs : List Char} {value : Json} (h : ReadsAs cs value) :
    read (String.ofList cs) = some value := by
  obtain ⟨r, hr, hends⟩ := h false [] ⟨.finished value, []⟩ rfl
  rw [read, String.toList_ofList, readChars,
    show cs.foldlM feed start = some r from hr, Option.bind_some, hends.finish]
  rfl

theorem compactItems_eq (items : List Json) :
    compactItems items = commaSeparated compactChars items :=
  eq_commaSeparated rfl (fun _ => rfl) (fun _ _ _ => rfl) items

theorem compactMembers_eq (members : List (JsonText × Json)) :
    compactMembers members = commaSeparated compactMember members :=
  eq_commaSeparated rfl (fun _ => rfl) (fun _ _ _ => rfl) members

theorem sizeOf_snd_lt_of_mem {members : List (JsonText × Json)} {key : JsonText} {value : Json}
    (h : (key, value) ∈ members) : sizeOf value < sizeOf members := by
  have hmem := List.sizeOf_lt_of_mem h
  simp only [Prod.mk.sizeOf_spec] at hmem
  omega

theorem readsAs_compactChars (j : Json) : ReadsAs j.compactChars j := by
  -- Along the recursion of the writer, into the items and the values of the members.
  match j with
  | .null => exact readsAs_null
  | .bool b => exact readsAs_writeBool b
  | .num n => exact readsAs_writeNumber n
  | .str text => exact readsAs_writeText text
  | .arr [] => exact readsAs_arr_nil
  | .obj [] => exact readsAs_obj_nil
  | .arr (item :: items) =>
      have h := readsAs_arr compactChars (List.cons_ne_nil item items)
        (fun i _ => readsAs_compactChars i) [] (by simp)
      rw [compactChars, compactItems_eq]
      simpa using h
  | .obj (member :: members) =>
      have h := readsAs_obj compactMember (List.cons_ne_nil member members)
        (fun (key, value) _ => (readsAs_compactChars value).member key) [] (by simp)
      rw [compactChars, compactMembers_eq]
      simpa using h
termination_by sizeOf j
decreasing_by
  · have := List.sizeOf_lt_of_mem ‹_ ∈ _›
    simp only [Json.arr.sizeOf_spec]
    omega
  · have := sizeOf_snd_lt_of_mem ‹_ ∈ _›
    simp only [Json.obj.sizeOf_spec]
    omega

/-- **Compact text reads back.** -/
theorem read_compact (j : Json) : read j.compact = some j :=
  read_of_readsAs (readsAs_compactChars j)

theorem isGap_of_mem_lineBreak {level : Nat} {c : Char} (h : c ∈ lineBreak level) :
    isGap c = true := by
  rcases List.mem_cons.mp h with rfl | h
  · decide
  · rw [List.eq_of_mem_replicate h]
    decide

theorem prettyItems_eq (level : Nat) (items : List Json) :
    prettyItems level items =
      commaSeparated (fun item => lineBreak level ++ prettyChars level item) items :=
  eq_commaSeparated rfl (fun _ => rfl) (fun _ _ _ => rfl) items

theorem prettyMembers_eq (level : Nat) (members : List (JsonText × Json)) :
    prettyMembers level members = commaSeparated (prettyMember level) members :=
  eq_commaSeparated rfl (fun _ => rfl) (fun _ _ _ => rfl) members

theorem readsAs_prettyChars (level : Nat) (j : Json) : ReadsAs (j.prettyChars level) j := by
  match j with
  | .null => exact readsAs_null
  | .bool b => exact readsAs_writeBool b
  | .num n => exact readsAs_writeNumber n
  | .str text => exact readsAs_writeText text
  | .arr [] => exact readsAs_arr_nil
  | .obj [] => exact readsAs_obj_nil
  | .arr (item :: items) =>
      have h := readsAs_arr (fun i => lineBreak (level + 1) ++ prettyChars (level + 1) i)
        (List.cons_ne_nil item items)
        (fun i _ => (readsAs_prettyChars (level + 1) i).gap_append
          fun _ => isGap_of_mem_lineBreak)
        (lineBreak level) (fun _ => isGap_of_mem_lineBreak)
      rw [prettyChars, prettyItems_eq]
      · exact h
      · simp
  | .obj (member :: members) =>
      have hmember : ∀ m ∈ member :: members, ReadsAsMember (prettyMember (level + 1) m) m := by
        rintro ⟨key, value⟩ _
        have hvalue : ReadsAs ([' '] ++ prettyChars (level + 1) value) value :=
          (readsAs_prettyChars (level + 1) value).gap_append (List.all_eq_true.mp rfl)
        have hgap : ∀ c ∈ lineBreak (level + 1), isGap c = true := fun _ => isGap_of_mem_lineBreak
        have h := (hvalue.member key).gap_append hgap
        rw [← List.append_assoc] at h
        exact h
      have h := readsAs_obj (prettyMember (level + 1)) (List.cons_ne_nil member members) hmember
        (lineBreak level) (fun _ => isGap_of_mem_lineBreak)
      rw [prettyChars, prettyMembers_eq]
      · exact h
      · simp
termination_by sizeOf j
decreasing_by
  · have := List.sizeOf_lt_of_mem ‹_ ∈ _›
    simp only [Json.arr.sizeOf_spec]
    omega
  · have := sizeOf_snd_lt_of_mem ‹_ ∈ _›
    simp only [Json.obj.sizeOf_spec]
    omega

/-- **Pretty text reads back.** -/
theorem read_pretty (j : Json) : read j.pretty = some j :=
  read_of_readsAs (readsAs_prettyChars 0 j)

/-- A gap may follow a value. -/
theorem ReadsAs.append_gap {cs : List Char} {value : Json} (h : ReadsAs cs value) {c : Char}
    (hc : isGap c = true) : ReadsAs (cs ++ [c]) value := by
  intro mayClose stack s hs
  obtain ⟨r, hr, hends⟩ := h mayClose stack s hs
  refine ⟨s, ?_, EndsAs.refl s⟩
  calc feedAll ⟨.value mayClose, stack⟩ (cs ++ [c])
      = r.feed c := by rw [feedAll_append, hr, Option.bind_some, feedAll_singleton]
    _ = s.afterValue c := by rw [hends.feed c (isBareChar_of_isGap hc), feed_of_complete hs]
    _ = some s := if_pos hc

/-- Pretty text reads back as the line that is printed. -/
theorem read_pretty_newline (j : Json) : read (j.pretty ++ "\n") = some j := by
  have hchars : j.pretty ++ "\n" = String.ofList (j.prettyChars 0 ++ ['\n']) := by
    rw [String.ofList_append]
    rfl
  rw [hchars]
  exact read_of_readsAs ((readsAs_prettyChars 0 j).append_gap rfl)

end InstanceConsole.Json
