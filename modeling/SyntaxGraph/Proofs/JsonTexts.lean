import SyntaxGraph.Json.Written
import SyntaxGraph.Proofs.Numerals

/-!
# Both layouts are texts of one value

The compact and the pretty text of a value differ in white space only. `tokens` lists what both
consist of: `Lexes` says that a text starts with certain tokens, whatever was found before them and
whatever follows, and it holds of both layouts part by part. The tokens then assemble to `written`,
the value as any reader finds it, before it is asked for characters, numbers or depth.

Main statement: `ofText_layouts`.
-/

namespace SyntaxGraph.Json

/-! ## Strings -/

/-- A character of a string as it is written: a control character without a short escape is given
by its code. -/
def StringPart.ofChar (c : Char) : StringPart :=
  if c < ' ' ∧ c ∉ ['\x08', '\x0c', '\n', '\r', '\t'] then .codeUnit c.toNat else .char c

def stringParts (s : String) : List StringPart := s.toList.map .ofChar

theorem codeUnit?_of_lt {n : Nat} (h : n < 32) :
    codeUnit? '0' '0' (Text.lowerHexDigit (n / 16)) (Text.lowerHexDigit (n % 16)) = some n := by
  have hzero : Text.hexValue? '0' = some 0 := rfl
  have hhigh := Text.hexValue?_lowerHexDigit (n / 16) (by omega)
  have hlow := Text.hexValue?_lowerHexDigit (n % 16) (by omega)
  simp only [codeUnit?, List.foldlM_cons, List.foldlM_nil, hzero, hhigh, hlow, Option.map_some,
    Option.bind_eq_bind, Option.bind_some, Option.pure_def, Option.some.injEq]
  omega

theorem lexString_escapeChar (c : Char) (done : List StringPart) (rest : List Char) :
    lexString done (escapeChar c ++ rest) = lexString (.ofChar c :: done) rest := by
  rw [escapeChar]
  by_cases hquote : c = '"'
  · subst hquote
    rfl
  rw [if_neg hquote]
  by_cases hslash : c = '\\'
  · subst hslash
    rfl
  rw [if_neg hslash]
  by_cases hshort : c ∈ ['\x08', '\x0c', '\n', '\r', '\t']
  · simp only [List.mem_cons, List.not_mem_nil, or_false] at hshort
    rcases hshort with rfl | rfl | rfl | rfl | rfl <;> rfl
  have hne := hshort
  simp only [List.mem_cons, List.not_mem_nil, or_false, not_or] at hne
  obtain ⟨hb, hf, hn, hr, ht⟩ := hne
  rw [if_neg hb, if_neg hf, if_neg hn, if_neg hr, if_neg ht]
  by_cases hcontrol : c < ' '
  · have hcode := codeUnit?_of_lt (n := c.toNat) hcontrol
    have hpart : StringPart.ofChar c = .codeUnit c.toNat := if_pos ⟨hcontrol, hshort⟩
    rw [if_pos hcontrol, hpart]
    simp only [List.cons_append, List.nil_append, lexString, hcode]
  · have hpart : StringPart.ofChar c = .char c := if_neg fun h => hcontrol h.1
    rw [if_neg hcontrol, hpart, List.singleton_append, lexString, if_neg hcontrol]
    · exact hquote
    · rintro a b d e tail rfl
      exact absurd rfl hslash
    · rintro a tail rfl
      exact absurd rfl hslash

theorem lexString_escaped (cs : List Char) (done : List StringPart) (rest : List Char) :
    lexString done (cs.flatMap escapeChar ++ '"' :: rest) =
      .ok (done.reverse ++ cs.map .ofChar, rest) := by
  induction cs generalizing done with
  | nil => rw [List.map_nil, List.append_nil]; rfl
  | cons c more ih =>
    rw [List.flatMap_cons, List.append_assoc, lexString_escapeChar, ih, List.reverse_cons,
      List.append_assoc]
    rfl

/-! ## Numbers -/

/-- The token of a number. -/
def Number.token (n : Number) : NumberToken :=
  match lexWord n.text.toList with
  | .ok (.number t, _) => t
  | _ => ⟨false, [], [], none⟩

theorem lexWord_of_isDigit {c : Char} (hc : c.isDigit = true) (cs : List Char) :
    lexWord (c :: cs) =
      match lexUnsigned false (c :: cs) with
      | some (token, rest) => .ok (.number token, rest)
      | none => .error .malformed := by
  unfold lexWord
  split <;> rename_i heq
  any_goals
    obtain ⟨rfl, -⟩ := List.cons.inj heq
    exact absurd hc (by decide)
  rfl

theorem lexWord_chars {t : NumberToken} (h : t.WellFormed) {rest : List Char}
    (hrest : StopsNumber rest) : lexWord (t.chars ++ rest) = .ok (.number t, rest) := by
  have hread := lexUnsigned_chars h hrest
  rw [NumberToken.chars]
  cases hsign : t.negative with
  | true =>
    rw [hsign] at hread
    rw [if_pos rfl, List.singleton_append, List.cons_append, lexWord, hread]
  | false =>
    obtain ⟨c, more, hwhole⟩ := List.exists_cons_of_ne_nil h.nonempty
    have hc : c.isDigit = true := h.whole c (by rw [hwhole]; exact List.mem_cons_self)
    rw [hsign] at hread
    rw [if_neg Bool.false_ne_true, List.nil_append]
    rw [NumberToken.unsignedChars, hwhole, List.cons_append, List.cons_append] at hread ⊢
    rw [lexWord_of_isDigit hc, hread]

theorem lexWord_text (n : Number) {rest : List Char} (hrest : StopsNumber rest) :
    lexWord (n.text.toList ++ rest) = .ok (.number n.token, rest) := by
  obtain ⟨t, ht, htext⟩ := exists_token n
  have htoken : n.token = t := by
    have hread := lexWord_chars ht stopsNumber_nil
    rw [List.append_nil, ← htext] at hread
    rw [Number.token, hread]
  rw [htoken, htext]
  exact lexWord_chars ht hrest

theorem exists_cons_text (n : Number) :
    ∃ c more, n.text.toList = c :: more ∧ (c = '-' ∨ c.isDigit = true) := by
  obtain ⟨t, ht, htext⟩ := exists_token n
  rw [htext, NumberToken.chars]
  cases t.negative with
  | true => exact ⟨'-', t.unsignedChars, rfl, .inl rfl⟩
  | false =>
    obtain ⟨c, more, hwhole⟩ := List.exists_cons_of_ne_nil ht.nonempty
    have hc : c.isDigit = true := ht.whole c (by rw [hwhole]; exact List.mem_cons_self)
    rw [NumberToken.unsignedChars, hwhole]
    exact ⟨c, _, rfl, .inr hc⟩

/-! ## Texts that start with tokens -/

/-- A text starts with tokens, and what follows them is left. -/
def Lexes (cs : List Char) (tokens : List Token) (rest : List Char) : Prop :=
  ∀ done, lexAfter done cs = lexAfter (tokens.reverse ++ done) rest

theorem Lexes.append {cs middle rest : List Char} {tokens more : List Token}
    (h : Lexes cs tokens middle) (hmore : Lexes middle more rest) :
    Lexes cs (tokens ++ more) rest := by
  intro done
  rw [h, hmore, List.reverse_append, List.append_assoc]

theorem lexes_space {c : Char} (hspace : isSpace c = true) (rest : List Char) :
    Lexes (c :: rest) [] rest := by
  intro done
  rw [lexAfter, if_pos hspace]
  rfl

theorem lexes_mark {c : Char} {t : Token} (hspace : isSpace c = false)
    (hmark : punctuation? c = some t) (rest : List Char) : Lexes (c :: rest) [t] rest := by
  intro done
  rw [lexAfter, if_neg (by rw [hspace]; exact Bool.false_ne_true), hmark]
  rfl

theorem lexes_word {c : Char} {t : Token} {cs rest : List Char} (hspace : isSpace c = false)
    (hmark : punctuation? c = none) (hword : lexWord (c :: cs) = .ok (t, rest)) :
    Lexes (c :: cs) [t] rest := by
  intro done
  rw [lexAfter, if_neg (by rw [hspace]; exact Bool.false_ne_true), hmark]
  dsimp only
  split
  · rename_i heq
    cases hword.symm.trans heq
    rfl
  · rename_i heq
    cases hword.symm.trans heq

theorem lexes_newLineOnto (level : Nat) (rest : List Char) :
    Lexes (newLineOnto level rest) [] rest := by
  have hindent : ∀ k : Nat, Lexes (List.replicate k ' ' ++ rest) [] rest := by
    intro k
    induction k with
    | zero => exact fun _ => rfl
    | succ k ih => exact (lexes_space rfl _).append ih
  exact (lexes_space rfl _).append (hindent _)

theorem lexes_quoteOnto (s : String) (rest : List Char) :
    Lexes (quoteOnto s rest) [.string (stringParts s)] rest := by
  have hread : lexString [] (s.toList.flatMap escapeChar ++ '"' :: rest) =
      .ok (stringParts s, rest) := lexString_escaped s.toList [] rest
  refine lexes_word rfl rfl ?_
  rw [lexWord, hread]

theorem plain_of_isDigit {c : Char} (hc : c.isDigit = true) :
    isSpace c = false ∧ punctuation? c = none := by
  have hne : ∀ d : Char, d.isDigit = false → c ≠ d := by
    rintro d hd rfl
    exact absurd hc (by rw [hd]; exact Bool.false_ne_true)
  constructor
  · simp [isSpace, hne ' ' rfl, hne '\n' rfl, hne '\t' rfl, hne '\r' rfl]
  · simp [punctuation?, hne '[' rfl, hne ']' rfl, hne '\x7b' rfl, hne '\x7d' rfl, hne ',' rfl,
      hne ':' rfl]

theorem lexes_number (n : Number) {rest : List Char} (hrest : StopsNumber rest) :
    Lexes (n.text.toList ++ rest) [.number n.token] rest := by
  have hword := lexWord_text n hrest
  obtain ⟨c, more, htext, hc⟩ := exists_cons_text n
  rw [htext, List.cons_append] at hword ⊢
  have hplain : isSpace c = false ∧ punctuation? c = none := by
    rcases hc with rfl | hc
    · exact ⟨rfl, rfl⟩
    · exact plain_of_isDigit hc
  exact lexes_word hplain.1 hplain.2 hword

/-! ## Tokens of a value -/

mutual

/-- The tokens of a value. -/
def tokens : Json → List Token
  | .null => [.null]
  | .bool b => [.bool b]
  | .number n => [.number n.token]
  | .string s => [.string (stringParts s)]
  | .array items => .openArray :: itemTokens items
  | .object members => .openObject :: memberTokens members

/-- The tokens of the items of an array, up to its end. -/
def itemTokens : List Json → List Token
  | [] => [.closeArray]
  | [item] => item.tokens ++ [.closeArray]
  | item :: next :: more => item.tokens ++ .comma :: itemTokens (next :: more)

/-- The tokens of the members of an object, up to its end. -/
def memberTokens : List (String × Json) → List Token
  | [] => [.closeObject]
  | [(key, value)] => .string (stringParts key) :: .colon :: (value.tokens ++ [.closeObject])
  | (key, value) :: next :: more =>
    .string (stringParts key) :: .colon :: (value.tokens ++ .comma :: memberTokens (next :: more))

end

/-! ## The compact text -/

theorem stopsNumber_cons {c : Char} (h : c.isDigit = false ∧ c ≠ '.' ∧ c ≠ 'e' ∧ c ≠ 'E')
    (rest : List Char) : StopsNumber (c :: rest) := by
  intro d hd
  cases hd
  exact h

mutual

theorem lexes_compactOnto {rest : List Char} (hrest : StopsNumber rest) :
    ∀ value : Json, Lexes (value.compactOnto rest) value.tokens rest
  | .null => lexes_word rfl rfl rfl
  | .bool b => by cases b <;> exact lexes_word rfl rfl rfl
  | .number n => lexes_number n hrest
  | .string s => lexes_quoteOnto s rest
  | .array items =>
    (lexes_mark rfl rfl _).append
      (lexes_compactItemsOnto (stopsNumber_cons (by decide) _) (lexes_mark rfl rfl rest) items)
  | .object members =>
    (lexes_mark rfl rfl _).append
      (lexes_compactMembersOnto (stopsNumber_cons (by decide) _) (lexes_mark rfl rfl rest) members)

theorem lexes_compactItemsOnto {tail rest : List Char} (htail : StopsNumber tail)
    (hclose : Lexes tail [.closeArray] rest) :
    ∀ items : List Json, Lexes (compactItemsOnto tail items) (itemTokens items) rest
  | [] => hclose
  | [item] => (lexes_compactOnto htail item).append hclose
  | item :: next :: more =>
    (lexes_compactOnto (stopsNumber_cons (by decide) _) item).append
      ((lexes_mark rfl rfl _).append (lexes_compactItemsOnto htail hclose (next :: more)))

theorem lexes_compactMembersOnto {tail rest : List Char} (htail : StopsNumber tail)
    (hclose : Lexes tail [.closeObject] rest) :
    ∀ members : List (String × Json),
      Lexes (compactMembersOnto tail members) (memberTokens members) rest
  | [] => hclose
  | [(key, value)] =>
    (lexes_quoteOnto key _).append
      ((lexes_mark rfl rfl _).append ((lexes_compactOnto htail value).append hclose))
  | (key, value) :: next :: more =>
    (lexes_quoteOnto key _).append ((lexes_mark rfl rfl _).append
      ((lexes_compactOnto (stopsNumber_cons (by decide) _) value).append
        ((lexes_mark rfl rfl _).append (lexes_compactMembersOnto htail hclose (next :: more)))))

end

/-! ## The pretty text -/

theorem stopsNumber_newLineOnto (level : Nat) (rest : List Char) :
    StopsNumber (newLineOnto level rest) := stopsNumber_cons (by decide) _

mutual

theorem lexes_prettyOnto {level : Nat} {rest : List Char} (hrest : StopsNumber rest) :
    ∀ value : Json, Lexes (value.prettyOnto level rest) value.tokens rest
  | .null => lexes_word rfl rfl rfl
  | .bool b => by cases b <;> exact lexes_word rfl rfl rfl
  | .number n => lexes_number n hrest
  | .string s => lexes_quoteOnto s rest
  | .array [] => (lexes_mark rfl rfl _).append (lexes_mark rfl rfl rest)
  | .array (item :: more) =>
    (lexes_mark rfl rfl _).append (lexes_prettyItemsOnto (stopsNumber_newLineOnto level _)
      ((lexes_newLineOnto level _).append (lexes_mark rfl rfl rest)) (item :: more))
  | .object [] => (lexes_mark rfl rfl _).append (lexes_mark rfl rfl rest)
  | .object (member :: more) =>
    (lexes_mark rfl rfl _).append (lexes_prettyMembersOnto (stopsNumber_newLineOnto level _)
      ((lexes_newLineOnto level _).append (lexes_mark rfl rfl rest)) (member :: more))

theorem lexes_prettyItemsOnto {level : Nat} {tail rest : List Char} (htail : StopsNumber tail)
    (hclose : Lexes tail [.closeArray] rest) :
    ∀ items : List Json, Lexes (prettyItemsOnto level tail items) (itemTokens items) rest
  | [] => hclose
  | [item] =>
    (lexes_newLineOnto level _).append ((lexes_prettyOnto htail item).append hclose)
  | item :: next :: more =>
    (lexes_newLineOnto level _).append
      ((lexes_prettyOnto (stopsNumber_cons (by decide) _) item).append
        ((lexes_mark rfl rfl _).append (lexes_prettyItemsOnto htail hclose (next :: more))))

theorem lexes_prettyMembersOnto {level : Nat} {tail rest : List Char} (htail : StopsNumber tail)
    (hclose : Lexes tail [.closeObject] rest) :
    ∀ members : List (String × Json),
      Lexes (prettyMembersOnto level tail members) (memberTokens members) rest
  | [] => hclose
  | [(key, value)] =>
    (lexes_newLineOnto level _).append ((lexes_quoteOnto key _).append
      ((lexes_mark rfl rfl _).append ((lexes_space rfl _).append
        ((lexes_prettyOnto htail value).append hclose))))
  | (key, value) :: next :: more =>
    (lexes_newLineOnto level _).append ((lexes_quoteOnto key _).append
      ((lexes_mark rfl rfl _).append ((lexes_space rfl _).append
        ((lexes_prettyOnto (stopsNumber_cons (by decide) _) value).append
          ((lexes_mark rfl rfl _).append
            (lexes_prettyMembersOnto htail hclose (next :: more)))))))

end

/-! ## Assembling the tokens -/

mutual

/-- The value as it is found in its text. -/
def written : Json → Written
  | .null => .null
  | .bool b => .bool b
  | .number n => .number n.token
  | .string s => .string (stringParts s)
  | .array items => .array (writtenItems items)
  | .object members => .object (writtenMembers members)

/-- The items of an array as they are found in its text. -/
def writtenItems : List Json → List Written
  | [] => []
  | item :: rest => item.written :: writtenItems rest

/-- The members of an object as they are found in its text. -/
def writtenMembers : List (String × Json) → List (List StringPart × Written)
  | [] => []
  | (key, value) :: rest => (stringParts key, value.written) :: writtenMembers rest

end

open Awaiting (step complete)

/-- Before a first item stands what may stand before any other. -/
theorem foldlM_tokens_firstItem (value : Json) (outer : List OpenContainer) (rest : List Token) :
    (value.tokens ++ rest).foldlM step (.firstItem outer) =
      (value.tokens ++ rest).foldlM step (.value (.array [] :: outer)) := by
  cases value <;> rfl

theorem exists_itemTokens_cons (item : Json) (more : List Json) :
    ∃ rest, itemTokens (item :: more) = item.tokens ++ rest := by
  cases more with
  | nil => exact ⟨_, rfl⟩
  | cons next more => exact ⟨_, rfl⟩

mutual

/-- The tokens of a value are taken for the value, wherever it stands. -/
theorem foldlM_tokens (outer : List OpenContainer) (rest : List Token) :
    ∀ value : Json, (value.tokens ++ rest).foldlM step (.value outer) =
      rest.foldlM step (complete value.written outer)
  | .null => rfl
  | .bool _ => rfl
  | .number _ => rfl
  | .string _ => rfl
  | .array [] => rfl
  | .array (item :: more) => by
    have hitems := foldlM_itemTokens [] outer rest (item :: more) nofun
    obtain ⟨others, hothers⟩ := exists_itemTokens_cons item more
    show (itemTokens (item :: more) ++ rest).foldlM step (.firstItem outer) = _
    rw [hothers, List.append_assoc] at hitems ⊢
    rw [foldlM_tokens_firstItem, hitems]
    rfl
  | .object [] => rfl
  | .object ((key, value) :: more) =>
    foldlM_memberTokens [] outer rest (fun _ => rfl) ((key, value) :: more) nofun

/-- The items of an array are taken behind those before them. -/
theorem foldlM_itemTokens (done : List Written) (outer : List OpenContainer) (rest : List Token) :
    ∀ items : List Json, items ≠ [] →
      (itemTokens items ++ rest).foldlM step (.value (.array done :: outer)) =
        rest.foldlM step (complete (.array (done.reverse ++ writtenItems items)) outer)
  | [], h => absurd rfl h
  | [item], _ => by
    rw [itemTokens, List.append_assoc, foldlM_tokens]
    show rest.foldlM step (complete (.array (item.written :: done).reverse) outer) = _
    rw [List.reverse_cons]
    rfl
  | item :: next :: more, _ => by
    rw [itemTokens, List.append_assoc, foldlM_tokens]
    show (itemTokens (next :: more) ++ rest).foldlM step
      (.value (.array (item.written :: done) :: outer)) = _
    rw [foldlM_itemTokens _ outer rest (next :: more) nofun, List.reverse_cons, List.append_assoc]
    rfl

/-- The members of an object are taken behind those before them, from any state that awaits a
key. -/
theorem foldlM_memberTokens (done : List (List StringPart × Written)) (outer : List OpenContainer)
    (rest : List Token) {state : Awaiting}
    (hstate : ∀ key, state.step (.string key) = .ok (.colon done key outer)) :
    ∀ members : List (String × Json), members ≠ [] →
      (memberTokens members ++ rest).foldlM step state =
        rest.foldlM step (complete (.object (done.reverse ++ writtenMembers members)) outer)
  | [], h => absurd rfl h
  | [(key, value)], _ => by
    show ((Token.string (stringParts key) :: .colon :: (value.tokens ++ [.closeObject])) ++
      rest).foldlM step state = _
    rw [List.cons_append, List.foldlM_cons, hstate]
    show ((value.tokens ++ [Token.closeObject]) ++ rest).foldlM step
      (.value (.object done (stringParts key) :: outer)) = _
    rw [List.append_assoc, foldlM_tokens]
    show rest.foldlM step
      (complete (.object ((stringParts key, value.written) :: done).reverse) outer) = _
    rw [List.reverse_cons]
    rfl
  | (key, value) :: next :: more, _ => by
    show ((Token.string (stringParts key) :: .colon ::
      (value.tokens ++ .comma :: memberTokens (next :: more))) ++ rest).foldlM step
        state = _
    rw [List.cons_append, List.foldlM_cons, hstate]
    show ((value.tokens ++ .comma :: memberTokens (next :: more)) ++ rest).foldlM step
      (.value (.object done (stringParts key) :: outer)) = _
    rw [List.append_assoc, foldlM_tokens]
    show (memberTokens (next :: more) ++ rest).foldlM step
      (.key ((stringParts key, value.written) :: done) outer) = _
    rw [foldlM_memberTokens _ outer rest (fun _ => rfl) (next :: more) nofun, List.reverse_cons,
      List.append_assoc]
    rfl

end

theorem ofTokens_tokens (value : Json) : Written.ofTokens value.tokens = .ok value.written := by
  have h := foldlM_tokens [] [] value
  rw [List.append_nil] at h
  rw [Written.ofTokens, h]
  rfl

theorem ofText_of_lexes {cs : List Char} {value : Json} (h : Lexes cs value.tokens []) :
    Written.ofText (String.ofList cs) = .ok value.written := by
  have hlex : lex (String.ofList cs) = .ok value.tokens := by
    rw [lex, String.toList_ofList, h, lexAfter, List.append_nil, List.reverse_reverse]
  rw [Written.ofText, hlex]
  exact ofTokens_tokens value

/-- **Both layouts of a value are texts of the same value**, for any reader. -/
theorem ofText_layouts (value : Json) :
    Written.ofText value.compact = .ok value.written ∧
      Written.ofText value.pretty = .ok value.written :=
  ⟨ofText_of_lexes (lexes_compactOnto stopsNumber_nil value),
    ofText_of_lexes (lexes_prettyOnto stopsNumber_nil value)⟩

end SyntaxGraph.Json
