import SyntaxGraph.Proofs.Finiteness
import SyntaxGraph.Proofs.JsonTexts
import SyntaxGraph.Proofs.Rearranging

/-!
# Values read back from their texts

Both layouts of a value are texts of `written`, its strings and numbers still being tokens. What
they denote is the value with its members in key order, which is as much as a reader of texts keeps
of an object. This is shown of *whole* values, in which all numbers are integers of 64 bits: an
integer beyond them is read as a float, and a float that is read may differ in the last bit from the
one that was written.

A reader takes texts down to some depth only. A text denotes a value for every reader that goes deep
enough.

Main statement: `denotes_layouts`.
-/

namespace SyntaxGraph.Json

/-! ## Strings -/

/-- A control character is given by one code unit, which never is half of a pair. -/
theorem charsAfter_ofChar (done : List Char) (c : Char) (rest : List StringPart) :
    Written.charsAfter done (.ofChar c :: rest) = Written.charsAfter (c :: done) rest := by
  rw [StringPart.ofChar]
  split
  · rename_i hcontrol
    have hlt : c.toNat < 32 := hcontrol.1
    have hhigh : Written.isHighSurrogate c.toNat = false := by simp [Written.isHighSurrogate]; omega
    have hlow : Written.isLowSurrogate c.toNat = false := by simp [Written.isLowSurrogate]; omega
    match rest with
    | [] | .char _ :: _ | .codeUnit _ :: _ =>
      simp [Written.charsAfter, hhigh, hlow, Char.ofNat_toNat]
  · rfl

theorem text_stringParts (s : String) : Written.text (stringParts s) = .ok s := by
  have hchars : ∀ (cs done : List Char),
      Written.charsAfter done (cs.map .ofChar) = .ok (done.reverse ++ cs) := by
    intro cs
    induction cs with
    | nil =>
      intro done
      rw [List.append_nil]
      rfl
    | cons c rest ih =>
      intro done
      rw [List.map_cons, charsAfter_ofChar, ih, List.reverse_cons, List.append_assoc,
        List.singleton_append]
  rw [Written.text, stringParts, hchars, List.reverse_nil, List.nil_append]
  exact congrArg Except.ok String.ofList_toList

/-! ## Integers -/

/-- The number is an integer of 64 bits, signed or unsigned. -/
def Number.IsWhole : Number → Prop
  | .int v => Int64.minValue.toInt ≤ v ∧ v < UInt64.size
  | .float _ => False

/-- All numbers in a value are integers of 64 bits. -/
def IsWhole (j : Json) : Prop := ∀ n ∈ j.numbers, n.IsWhole

theorem token_int (v : Int) :
    (Number.int v).token = ⟨decide (v < 0), Nat.toDigits 10 v.natAbs, [], none⟩ := by
  have hread := lexWord_chars (wellFormed_whole (decide (v < 0)) v.natAbs)
    stopsNumber_nil
  rw [List.append_nil, chars_whole] at hread
  rw [Number.token, Number.text, hread]

theorem digitsValue_toDigits (n : Nat) : digitsValue (Nat.toDigits 10 n) = n := by
  have hfold : ∀ (ds : List Char) (init : Nat),
      ds.foldl (fun value c => value * 10 + digitValue c) init = Nat.ofDigitChars 10 ds init := by
    intro ds
    induction ds with
    | nil => exact fun _ => rfl
    | cons d rest ih =>
      intro init
      rw [List.foldl_cons, ih, Nat.ofDigitChars_cons, Nat.mul_comm, digitValue]
  rw [digitsValue, hfold, Nat.ofDigitChars_toDigits (by decide) (by decide)]

theorem le_foldl_digits (ds : List Char) (init : Nat) :
    init ≤ ds.foldl (fun value c => value * 10 + digitValue c) init := by
  induction ds generalizing init with
  | nil => exact Nat.le_refl _
  | cons d rest ih =>
    have hstep : init ≤ init * 10 + digitValue d := by omega
    exact Nat.le_trans hstep (ih _)

/-- All digits are collected if the number that they make fits. -/
theorem collectWhole_of_lt {ds : List Char} {init : Nat}
    (h : ds.foldl (fun value c => value * 10 + digitValue c) init < UInt64.size) :
    NumberToken.collectWhole init ds =
      (ds.foldl (fun value c => value * 10 + digitValue c) init, 0) := by
  induction ds generalizing init with
  | nil => rfl
  | cons d rest ih =>
    rw [List.foldl_cons] at h ⊢
    rw [NumberToken.collectWhole, if_pos (Nat.lt_of_le_of_lt (le_foldl_digits rest _) h), ih h]

theorem value_token {n : Number} (whole : n.IsWhole) : n.token.value = .ok n := by
  cases n with
  | float x => exact whole.elim
  | int v =>
    obtain ⟨hlow, hhigh⟩ : Int64.minValue.toInt ≤ v ∧ v < UInt64.size := whole
    have hmin : Int64.minValue.toInt = -2 ^ 63 := rfl
    have hsize : UInt64.size = 2 ^ 64 := rfl
    have hdigits : digitsValue (Nat.toDigits 10 v.natAbs) < UInt64.size := by
      rw [digitsValue_toDigits]
      omega
    have hcollect : NumberToken.collectWhole 0 (Nat.toDigits 10 v.natAbs) = (v.natAbs, 0) := by
      rw [collectWhole_of_lt hdigits]
      exact congrArg (·, 0) (digitsValue_toDigits v.natAbs)
    rw [token_int, NumberToken.value]
    dsimp only
    rw [hcollect]
    generalize habs : v.natAbs = size
    by_cases hv : v < 0
    · have hvalue : -(size : Int) = v := by omega
      have hrange : 0 < size ∧ size ≤ UInt64.size / 2 := by omega
      simp [hv, hrange, hvalue]
    · have hvalue : (size : Int) = v := by omega
      simp [hv, hvalue]

/-! ## Whole values -/

theorem isWhole_array {items : List Json} :
    (Json.array items).IsWhole ↔ ∀ item ∈ items, item.IsWhole := by
  rw [IsWhole, numbers, numbersItems_eq, List.forall_mem_flatMap]
  rfl

theorem isWhole_object {members : List (String × Json)} :
    (Json.object members).IsWhole ↔ ∀ m ∈ members, m.2.IsWhole := by
  rw [IsWhole, numbers, numbersMembers_eq, List.forall_mem_flatMap]
  rfl

theorem isWhole_null : Json.null.IsWhole := nofun

theorem isWhole_bool (b : Bool) : (Json.bool b).IsWhole := nofun

theorem isWhole_string (s : String) : (Json.string s).IsWhole := nofun

/-! ## What texts denote -/

/-- The value that a text denotes, for every reader that goes deep enough. -/
def Denotes (text : String) (value : Json) : Prop :=
  ∃ written, Written.ofText text = .ok written ∧
    ∃ depth, ∀ levels, depth ≤ levels → written.toJson levels = .ok value

/-- The text denotes a value that is read as `a`. -/
def ReadsAs {α : Type} (read : Json → Option α) (text : String) (a : α) : Prop :=
  ∃ value, Denotes text value ∧ read value = some a

mutual

theorem toJson_written :
    ∀ value : Json, value.IsWhole →
      ∃ depth, ∀ levels, depth ≤ levels → value.written.toJson levels = .ok value.sortKeys
  | .null, _ => ⟨0, fun _ _ => rfl⟩
  | .bool _, _ => ⟨0, fun _ _ => rfl⟩
  | .number n, whole => by
    refine ⟨0, fun levels _ => ?_⟩
    rw [written, Written.toJson, value_token (whole n (List.mem_singleton_self n))]
    rfl
  | .string s, _ => by
    refine ⟨0, fun levels _ => ?_⟩
    rw [written, Written.toJson, text_stringParts]
    rfl
  | .array items, whole => by
    obtain ⟨depth, hitems⟩ := itemsToJson_written items (isWhole_array.1 whole)
    refine ⟨depth + 1, fun levels hlevels => ?_⟩
    obtain ⟨levels, rfl⟩ := Nat.exists_eq_add_of_lt hlevels
    rw [written, Written.toJson, hitems _ (Nat.le_add_right _ _)]
    rfl
  | .object members, whole => by
    obtain ⟨depth, hmembers⟩ := membersToJson_written members (isWhole_object.1 whole)
    refine ⟨depth + 1, fun levels hlevels => ?_⟩
    obtain ⟨levels, rfl⟩ := Nat.exists_eq_add_of_lt hlevels
    rw [written, Written.toJson, hmembers _ (Nat.le_add_right _ _)]
    rfl

theorem itemsToJson_written :
    ∀ items : List Json, (∀ item ∈ items, item.IsWhole) →
      ∃ depth, ∀ levels, depth ≤ levels →
        Written.itemsToJson levels (writtenItems items) = .ok (sortKeysItems items)
  | [], _ => ⟨0, fun _ _ => rfl⟩
  | item :: rest, whole => by
    obtain ⟨hitem, hrest⟩ := List.forall_mem_cons.1 whole
    obtain ⟨depth, hitem⟩ := toJson_written item hitem
    obtain ⟨depths, hrest⟩ := itemsToJson_written rest hrest
    refine ⟨max depth depths, fun levels hlevels => ?_⟩
    rw [writtenItems, Written.itemsToJson, hitem levels (Nat.max_le.1 hlevels).1,
      hrest levels (Nat.max_le.1 hlevels).2]
    rfl

theorem membersToJson_written :
    ∀ members : List (String × Json), (∀ m ∈ members, m.2.IsWhole) →
      ∃ depth, ∀ levels, depth ≤ levels →
        Written.membersToJson levels (writtenMembers members) = .ok (sortKeysMembers members)
  | [], _ => ⟨0, fun _ _ => rfl⟩
  | (key, value) :: rest, whole => by
    obtain ⟨hvalue, hrest⟩ := List.forall_mem_cons.1 whole
    obtain ⟨depth, hvalue⟩ := toJson_written value hvalue
    obtain ⟨depths, hrest⟩ := membersToJson_written rest hrest
    refine ⟨max depth depths, fun levels hlevels => ?_⟩
    rw [writtenMembers, Written.membersToJson, text_stringParts,
      hvalue levels (Nat.max_le.1 hlevels).1, hrest levels (Nat.max_le.1 hlevels).2]
    rfl

end

/-- **A whole value is read back from both layouts**, with its members in key order. -/
theorem denotes_layouts {value : Json} (whole : value.IsWhole) :
    Denotes value.compact value.sortKeys ∧ Denotes value.pretty value.sortKeys :=
  ⟨⟨value.written, value.ofText_layouts.1, toJson_written value whole⟩,
    ⟨value.written, value.ofText_layouts.2, toJson_written value whole⟩⟩

/-! ## Members in key order -/

theorem induct {motive : Json → Prop} (null : motive .null) (bool : ∀ b, motive (.bool b))
    (number : ∀ n, motive (.number n)) (string : ∀ s, motive (.string s))
    (array : ∀ items, (∀ item ∈ items, motive item) → motive (.array items))
    (object : ∀ members : List (String × Json), (∀ m ∈ members, motive m.2) →
      motive (.object members)) (value : Json) : motive value := by
  induction hsize : sizeOf value using Nat.strongRecOn generalizing value with
  | ind size ih =>
    subst hsize
    cases value with
    | null => exact null
    | bool b => exact bool b
    | number n => exact number n
    | string s => exact string s
    | array items =>
      refine array items fun item hitem => ih _ ?_ item rfl
      have hlt := List.sizeOf_lt_of_mem hitem
      simp only [Json.array.sizeOf_spec]
      omega
    | object members =>
      refine object members fun m hm => ih _ ?_ m.2 rfl
      have hlt := List.sizeOf_lt_of_mem hm
      obtain ⟨key, value⟩ := m
      simp only [Json.object.sizeOf_spec, Prod.mk.sizeOf_spec] at hlt ⊢
      omega

/-- What stands in key order are members in key order. -/
theorem sortKeys_of_mem {members : List (String × Json)} {m : String × Json}
    (h : m ∈ (SortedMap.ofList (sortKeysMembers members)).entries) :
    ∃ m' ∈ members, m.2 = m'.2.sortKeys := by
  have hmem := SortedMap.mem_of_mem_entries_ofList h
  rw [sortKeysMembers_eq] at hmem
  obtain ⟨m', hm', rfl⟩ := List.mem_map.1 hmem
  exact ⟨m', hm', rfl⟩

/-- Members that are in key order stay where they are. -/
theorem sortKeys_sortKeys (value : Json) : value.sortKeys.sortKeys = value.sortKeys := by
  induction value using induct with
  | null | bool | number | string => rfl
  | array items ih =>
    rw [sortKeys, sortKeys, sortKeysItems_eq, sortKeysItems_eq, List.map_map]
    exact congrArg Json.array (List.map_congr_left ih)
  | object members ih =>
    have hsorted : sortKeysMembers (SortedMap.ofList (sortKeysMembers members)).entries =
        (SortedMap.ofList (sortKeysMembers members)).entries := by
      rw [sortKeysMembers_eq]
      refine (List.map_congr_left fun m hm => ?_).trans (List.map_id _)
      obtain ⟨m', hm', heq⟩ := sortKeys_of_mem hm
      exact Prod.ext rfl (by rw [heq, ih m' hm']; exact heq.symm)
    rw [sortKeys, sortKeys, hsorted, SortedMap.ofList_eq_of_perm (.refl _)]

theorem IsWhole.sortKeys {value : Json} (whole : value.IsWhole) : value.sortKeys.IsWhole := by
  induction value using induct with
  | null | bool | number | string => exact whole
  | array items ih =>
    rw [Json.sortKeys, sortKeysItems_eq, isWhole_array, List.forall_mem_map]
    exact fun item hitem => ih item hitem (isWhole_array.1 whole item hitem)
  | object members ih =>
    rw [Json.sortKeys, isWhole_object]
    intro m hm
    obtain ⟨m', hm', heq⟩ := sortKeys_of_mem hm
    rw [heq]
    exact ih m' hm' (isWhole_object.1 whole m' hm')

end SyntaxGraph.Json
