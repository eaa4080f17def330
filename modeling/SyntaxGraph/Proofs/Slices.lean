import SyntaxGraph.Text.Slice

/-!
# Slices of a text

A text has a slice between two byte offsets if it can be cut there: into what comes before, the
slice, and what comes after. Dropping bytes and taking bytes each cut once, and only between two
characters (`dropBytes_eq_some_iff`, `takeBytes_eq_some_iff`).

Main statement: `sliceBytes_eq_some_iff`.
-/

namespace SyntaxGraph.Text

/-- `t` is what the text `s` has from byte `start` up to byte `stop`. -/
def IsSlice (s : String) (start stop : Nat) (t : String) : Prop :=
  ∃ before after, s = before ++ t ++ after ∧ before.utf8ByteSize = start ∧
    (before ++ t).utf8ByteSize = stop

/-! ## Bytes of a list of characters -/

@[simp]
theorem utf8ByteSize_ofList_cons (c : Char) (cs : List Char) :
    (String.ofList (c :: cs)).utf8ByteSize = c.utf8Size + (String.ofList cs).utf8ByteSize := by
  rw [String.ofList_cons, String.utf8ByteSize_append, String.utf8ByteSize_singleton]

theorem utf8ByteSize_ofList_eq_zero {cs : List Char} :
    (String.ofList cs).utf8ByteSize = 0 ↔ cs = [] := by
  cases cs with
  | nil => simp
  | cons c cs =>
    have hc := c.utf8Size_pos
    simp only [utf8ByteSize_ofList_cons, List.cons_ne_nil, iff_false]
    omega

variable {count : Nat} {c : Char} {cs front rest : List Char}

/-- A front part with bytes holds the first character. -/
theorem exists_cons_of_append (h : c :: cs = front ++ rest)
    (hsize : (String.ofList front).utf8ByteSize = count + 1) :
    ∃ tail, front = c :: tail ∧ cs = tail ++ rest ∧
      c.utf8Size + (String.ofList tail).utf8ByteSize = count + 1 := by
  cases front with
  | nil => cases hsize
  | cons d tail =>
    obtain ⟨rfl, rfl⟩ := List.cons.inj h
    exact ⟨tail, rfl, rfl, by rw [← hsize, utf8ByteSize_ofList_cons]⟩

/-! ## Cutting once -/

/-- Dropping bytes leaves what stands behind that many bytes of whole characters. -/
theorem dropBytes_eq_some_iff :
    dropBytes count cs = some rest ↔
      ∃ front, cs = front ++ rest ∧ (String.ofList front).utf8ByteSize = count := by
  fun_induction dropBytes count cs with
  | case1 cs => simp
  | case2 count => simp
  | case3 count c cs fits ih =>
    rw [ih]
    constructor
    · rintro ⟨front, rfl, hsize⟩
      exact ⟨c :: front, rfl, by rw [utf8ByteSize_ofList_cons, hsize, Nat.add_sub_cancel' fits]⟩
    · rintro ⟨front, hfront, hsize⟩
      obtain ⟨tail, rfl, htail, hsum⟩ := exists_cons_of_append hfront hsize
      exact ⟨tail, htail, by rw [← hsum, Nat.add_sub_cancel_left]⟩
  | case4 count c cs tight =>
    -- the offset is inside the first character
    refine iff_of_false nofun ?_
    rintro ⟨front, hfront, hsize⟩
    obtain ⟨tail, -, -, hsum⟩ := exists_cons_of_append hfront hsize
    exact tight (hsum ▸ Nat.le_add_right _ _)

/-- Taking bytes gives what the text begins with, if that is so many bytes of whole characters. -/
theorem takeBytes_eq_some_iff :
    takeBytes count cs = some front ↔
      (∃ rest, cs = front ++ rest) ∧ (String.ofList front).utf8ByteSize = count := by
  fun_induction takeBytes count cs generalizing front with
  | case1 cs =>
    rw [utf8ByteSize_ofList_eq_zero, Option.some.injEq, eq_comm]
    exact ⟨fun h => ⟨⟨cs, by rw [h, List.nil_append]⟩, h⟩, fun h => h.2⟩
  | case2 count => simp_all
  | case3 count c cs fits ih =>
    rw [Option.map_eq_some_iff]
    constructor
    · rintro ⟨tail, htail, rfl⟩
      obtain ⟨⟨rest, rfl⟩, hsize⟩ := ih.1 htail
      exact ⟨⟨rest, rfl⟩, by rw [utf8ByteSize_ofList_cons, hsize, Nat.add_sub_cancel' fits]⟩
    · rintro ⟨⟨rest, hrest⟩, hsize⟩
      obtain ⟨tail, rfl, htail, hsum⟩ := exists_cons_of_append hrest hsize
      exact ⟨tail, ih.2 ⟨⟨rest, htail⟩, by rw [← hsum, Nat.add_sub_cancel_left]⟩, rfl⟩
  | case4 count c cs tight =>
    refine iff_of_false nofun ?_
    rintro ⟨⟨rest, hrest⟩, hsize⟩
    obtain ⟨tail, -, -, hsum⟩ := exists_cons_of_append hrest hsize
    exact tight (hsum ▸ Nat.le_add_right _ _)

/-! ## Cutting twice -/

variable {s t : String} {start stop : Nat}

theorem sliceBytes_eq_some_iff_cuts :
    sliceBytes s start stop = some t ↔ start ≤ stop ∧
      ∃ cs, dropBytes start s.toList = some cs ∧ takeBytes (stop - start) cs = some t.toList := by
  rw [sliceBytes]
  split
  · rename_i hle
    rw [Option.map_eq_some_iff]
    simp only [Option.bind_eq_some_iff, hle, true_and]
    constructor
    · rintro ⟨_, h, rfl⟩
      rwa [String.toList_ofList]
    · exact fun h => ⟨t.toList, h, String.ofList_toList⟩
  · rename_i hlt
    exact iff_of_false nofun fun h => hlt h.1

/-- **A slice is what stands between two cuts.** -/
theorem sliceBytes_eq_some_iff : sliceBytes s start stop = some t ↔ IsSlice s start stop t := by
  rw [sliceBytes_eq_some_iff_cuts]
  constructor
  · rintro ⟨hle, cs, hdrop, htake⟩
    obtain ⟨before, hbefore, hstart⟩ := dropBytes_eq_some_iff.1 hdrop
    obtain ⟨⟨after, rfl⟩, hsize⟩ := takeBytes_eq_some_iff.1 htake
    rw [String.ofList_toList] at hsize
    refine ⟨String.ofList before, String.ofList after, ?_, hstart, ?_⟩
    · rw [← String.toList_inj]
      simp [hbefore]
    · rw [String.utf8ByteSize_append, hstart, hsize, Nat.add_sub_cancel' hle]
  · rintro ⟨before, after, rfl, rfl, rfl⟩
    rw [String.utf8ByteSize_append, Nat.add_sub_cancel_left]
    refine ⟨Nat.le_add_right _ _, (t ++ after).toList, ?_, ?_⟩
    · exact dropBytes_eq_some_iff.2 ⟨before.toList, by simp, by rw [String.ofList_toList]⟩
    · exact takeBytes_eq_some_iff.2
        ⟨⟨after.toList, String.toList_append⟩, by rw [String.ofList_toList]⟩

theorem isSome_sliceBytes_iff :
    (sliceBytes s start stop).isSome = true ↔ ∃ t, IsSlice s start stop t := by
  rw [Option.isSome_iff_exists]
  exact exists_congr fun t => sliceBytes_eq_some_iff

end SyntaxGraph.Text
