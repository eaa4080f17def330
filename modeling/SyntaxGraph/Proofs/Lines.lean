import SyntaxGraph.Proofs.Acceptance
import SyntaxGraph.Proofs.Keys
import SyntaxGraph.Proofs.Reports
import SyntaxGraph.Proofs.Subtrees

/-!
# Lines are lines of the source

A parser puts a node on a row, which is the number of line feeds before it. The lines of a source
are counted by themselves, as one more than its line feeds. So the line of a node is one of the
lines of the source, on whichever of the ways it is reported: as the line of a fault, or as an
attribute of a node in one of the views. A row of a source that is short enough is not cut off when
it is made a line.

Main statement: `lines_of_report`.
-/

namespace SyntaxGraph

/-! ## Line feeds before an offset -/

namespace Text

def bytes (s : String) : List UInt8 := s.toByteArray.data.toList

/-- The number of line feeds among the bytes before an offset. -/
def lineFeedsBefore (s : String) (offset : Nat) : Nat := ((bytes s).take offset).count 10

theorem bytes_eq (s : String) : bytes s = s.toList.flatMap String.utf8EncodeChar := by
  rw [bytes, ← String.utf8Encode_toList, List.utf8Encode]
  simp

theorem lineFeed_ne_ofNat {n : Nat} (hne : n ≠ 10) (hlt : n < 256) : 10 ≠ UInt8.ofNat n := by
  intro h
  have hnat := congrArg UInt8.toNat h
  rw [UInt8.toNat_ofNat', Nat.mod_eq_of_lt hlt] at hnat
  exact hne hnat.symm

/-- A line feed is one byte, and no byte of another character is one. -/
theorem count_utf8EncodeChar (c : Char) :
    (String.utf8EncodeChar c).count 10 = if c = '\n' then 1 else 0 := by
  by_cases hc : c = '\n'
  · rw [if_pos hc, hc]
    rfl
  · have hvalue : c.val.toNat ≠ 10 := fun h => hc (Char.ext (UInt32.toNat_inj.1 h))
    rw [if_neg hc, List.count_eq_zero, String.utf8EncodeChar]
    split_ifs <;> simp only [List.mem_cons, List.not_mem_nil, or_false, not_or]
    · exact lineFeed_ne_ofNat hvalue (by omega)
    · exact ⟨lineFeed_ne_ofNat (by omega) (by omega), lineFeed_ne_ofNat (by omega) (by omega)⟩
    · exact ⟨lineFeed_ne_ofNat (by omega) (by omega), lineFeed_ne_ofNat (by omega) (by omega),
        lineFeed_ne_ofNat (by omega) (by omega)⟩
    · exact ⟨lineFeed_ne_ofNat (by omega) (by omega), lineFeed_ne_ofNat (by omega) (by omega),
        lineFeed_ne_ofNat (by omega) (by omega), lineFeed_ne_ofNat (by omega) (by omega)⟩

theorem lineFeedsBefore_mono (s : String) {a b : Nat} (h : a ≤ b) :
    lineFeedsBefore s a ≤ lineFeedsBefore s b :=
  (List.take_sublist_take_left h).count_le _

theorem count_bytes (s : String) : (bytes s).count 10 = s.toList.count '\n' := by
  rw [bytes_eq]
  induction s.toList with
  | nil => rfl
  | cons c rest ih =>
    rw [List.flatMap_cons, List.count_append, ih, count_utf8EncodeChar, List.count_cons,
      Nat.add_comm]
    simp only [beq_iff_eq]

theorem lineFeedsBefore_lt_countLines (s : String) (offset : Nat) :
    lineFeedsBefore s offset < countLines s := by
  rw [countLines, ← count_bytes, Nat.lt_succ_iff]
  exact (List.take_sublist _ _).count_le _

theorem countLines_le (s : String) : countLines s ≤ s.utf8ByteSize + 1 := by
  rw [countLines, ← count_bytes]
  exact Nat.succ_le_succ List.count_le_length

end Text

/-! ## The lines of a node -/

/-- Where a parser puts a node: on a slice of the source, with the rows that the line feeds before
its ends make. -/
structure SyntaxNode.StandsIn (source : String) (n : SyntaxNode) : Prop where
  slice : (Text.sliceBytes source n.label.startByte n.label.endByte).isSome
  startRow : n.label.startPoint.row = Text.lineFeedsBefore source n.label.startByte
  endRow : n.label.endPoint.row = Text.lineFeedsBefore source n.label.endByte

instance (source : String) (n : SyntaxNode) : Decidable (n.StandsIn source) :=
  decidable_of_iff
    ((Text.sliceBytes source n.label.startByte n.label.endByte).isSome ∧
      n.label.startPoint.row = Text.lineFeedsBefore source n.label.startByte ∧
      n.label.endPoint.row = Text.lineFeedsBefore source n.label.endByte)
    ⟨fun h => ⟨h.1, h.2.1, h.2.2⟩, fun h => ⟨h.slice, h.startRow, h.endRow⟩⟩

/-- The lines of a node are lines of the source, in order, and none of its rows is cut off. -/
structure SyntaxNode.LinesWithin (lines : Nat) (n : SyntaxNode) : Prop where
  start : n.span.startLine.toNat = n.label.startPoint.row + 1
  stop : n.span.endLine.toNat = n.label.endPoint.row + 1
  ordered : n.label.startPoint.row ≤ n.label.endPoint.row
  within : n.label.endPoint.row < lines

theorem SyntaxNode.StandsIn.linesWithin {source : String} {n : SyntaxNode}
    (h : n.StandsIn source) (short : source.utf8ByteSize < 2 ^ 32 - 1) :
    n.LinesWithin (countLines source) := by
  have hbytes : n.label.startByte ≤ n.label.endByte := by
    have hslice := h.slice
    rw [Text.sliceBytes] at hslice
    by_contra hlt
    rw [if_neg hlt] at hslice
    cases hslice
  have hordered : n.label.startPoint.row ≤ n.label.endPoint.row := by
    rw [h.startRow, h.endRow]
    exact Text.lineFeedsBefore_mono source hbytes
  have hwithin : n.label.endPoint.row < countLines source := by
    rw [h.endRow]
    exact Text.lineFeedsBefore_lt_countLines source _
  have hlines := Text.countLines_le source
  have hsize : UInt32.size = 2 ^ 32 := rfl
  exact ⟨toNat_lineOfRow (by omega), toNat_lineOfRow (by omega), hordered, hwithin⟩

/-! ## Faults -/

/-- **A source whose byte ranges are slices fails with a fault**, on the line of one of its
nodes. -/
theorem exists_fault_of_pythonRawTree {options : TreeOptions} {source : String} {root : SyntaxNode}
    (slices : ∀ n ∈ root.preorder,
      (Text.sliceBytes source n.label.startByte n.label.endByte).isSome) {e : ParseError}
    (h : pythonRawTree options source root = .error e) :
    ∃ n ∈ root.preorder, ∃ what, e = .fault n.startLine what := by
  cases herror : root.label.hasError with
  | true =>
    obtain ⟨n, what, hfault, hn⟩ := pythonRawTree_of_hasError options source herror
    rw [hfault] at h
    cases h
    refine ⟨n, ?_, what, rfl⟩
    rw [hn]
    cases hfind : (root.reachable fun n => n.label.hasError).find? SyntaxNode.isFaulty with
    | none => exact root.mem_preorder_self
    | some m => exact (SyntaxNode.reachable_sublist _ root).mem (List.mem_of_find?_eq_some hfind)
  | false =>
    cases hold : root.preorder.find? SyntaxNode.isOldStatement with
    | some n =>
      rw [pythonRawTree_of_oldStatement herror hold] at h
      cases h
      exact ⟨n, List.mem_of_find?_eq_some hold, _, rfl⟩
    | none =>
      rw [pythonRawTree_of_plain herror hold] at h
      obtain ⟨x, hfind, rfl⟩ :=
        (Lowering.lower_eq_error_iff (l := ⟨pythonSchema, source, options⟩) slices e).1 h
      have hmem := List.mem_map_of_mem (f := Prod.snd) (List.mem_of_find?_eq_some hfind)
      exact ⟨x.2, (Lowering.keptLevels_sublist _ 0 root).mem hmem, _, rfl⟩

/-! ## Attributes -/

/-- The lines among the attributes of an entry are integers from one to the number of lines. -/
def Entry.LinesWithin (lines : Nat) (e : Entry) : Prop :=
  ∃ start stop : Int64, e.attributes.get? "start_line" = some (some (.int start)) ∧
    e.attributes.get? "end_line" = some (some (.int stop)) ∧
    1 ≤ start.toInt ∧ start.toInt ≤ stop.toInt ∧ stop.toInt ≤ lines

theorem toInt_ofInt_word (w : UInt32) : (Int64.ofInt w.toNat).toInt = w.toNat := by
  have hlt := w.toNat_lt
  exact Int64.toInt_ofInt_of_le (by omega) (by omega)

/-- The last of several fields with one name that give an attribute counts. -/
theorem get?_attributesOf_append {before after : List (String × RawValue)} {name : String}
    {value : Option Scalar}
    (h : ((after.filter (·.1 = name)).filterMap (·.2.attribute?)).getLast? = some value) :
    (attributesOf (before ++ after)).get? name = some value := by
  rw [get?_attributesOf, List.filter_append, List.filterMap_append, List.getLast?_append, h]
  rfl

/-- The position attributes of a lowered node are those of its span, whatever else is in it. -/
theorem get?_positions {l : Lowering} {n : SyntaxNode} {placed : List Placed} {raw : RawNode}
    (wanted : l.options.includePositions = true) (h : l.assemble n placed = .ok raw) :
    (attributesOf raw.fields).get? "start_line" =
        some (some (.int (Int64.ofInt n.span.startLine.toNat))) ∧
      (attributesOf raw.fields).get? "end_line" =
        some (some (.int (Int64.ofInt n.span.endLine.toNat))) := by
  obtain ⟨text, -, rfl⟩ := Lowering.assemble_eq_ok_iff.1 h
  rw [Lowering.positionsOf, if_pos wanted]
  exact ⟨get?_attributesOf_append rfl, get?_attributesOf_append rfl⟩

/-- The entries of a lowered tree have lines within those of the nodes it was lowered from. -/
theorem linesWithin_of_mem_entries {l : Lowering} {root : SyntaxNode} {raw : RawNode}
    (wanted : l.options.includePositions = true) {lines : Nat}
    (within : ∀ n ∈ root.preorder, n.LinesWithin lines) (h : l.lower root = .ok raw)
    (n : Numbering) : ∀ e ∈ (n.node raw).1.toNumbered.entries, e.LinesWithin lines := by
  intro e he
  rw [← Numbered.map_entry_nodes] at he
  obtain ⟨x, hx, rfl⟩ := List.mem_map.1 he
  obtain ⟨r, hr, k, rfl⟩ := Numbering.numbersOneOf_of_mem_nodes hx
  obtain ⟨m, hm, level, hlevel⟩ := Lowering.exists_lowerAt_of_mem_nodes h hr
  obtain ⟨-, placed, -, hassemble⟩ := Lowering.lowerAt_eq_ok_iff.1 hlevel
  obtain ⟨hstart, hstop⟩ := get?_positions wanted hassemble
  obtain ⟨hfirst, hlast, hordered, hlt⟩ := within m hm
  refine ⟨_, _, hstart, hstop, ?_, ?_, ?_⟩ <;>
    simp only [toInt_ofInt_word] <;> omega

/-! ## Reports -/

/-- **Lines are lines of the source.** A source of fewer than 2³² - 1 bytes is refused on one of its
lines. If it has a tree and positions are wanted, each node of the tree, of the list of nodes and
of the nested view has the lines where it starts and ends, in this order, and both are lines of the
source. No row is too large to be made a line. -/
theorem lines_of_report (tree? : String → Option SyntaxNode) (options : TreeOptions)
    (source : String) (root : SyntaxNode) (answer : tree? source = some root)
    (short : source.utf8ByteSize < 2 ^ 32 - 1)
    (places : ∀ n ∈ root.preorder, n.StandsIn source) :
    let report := (pythonParser tree? options).report source
    (report.success = false → ∃ line words,
      report.error = some ("Syntax Error at line " ++ toString line ++ ": " ++ words) ∧
      1 ≤ line ∧ line ≤ report.lines) ∧
    (report.success = true → options.includePositions = true → ∃ tree flat,
      report.tree = some tree ∧ report.flattened = some (.tree flat) ∧
      (∀ e ∈ tree.toNumbered.entries, e.LinesWithin report.lines) ∧
      (∀ e ∈ flat.nodes, e.LinesWithin report.lines) ∧
      ∀ s ∈ flat.hierarchy.sites 0 none, s.entry.LinesWithin report.lines) ∧
    ∀ n ∈ root.preorder, (lineOfRow n.label.startPoint.row).toNat = n.label.startPoint.row + 1 ∧
      (lineOfRow n.label.endPoint.row).toNat = n.label.endPoint.row + 1 := by
  intro report
  have within : ∀ n ∈ root.preorder, n.LinesWithin (countLines source) :=
    fun n hn => (places n hn).linesWithin short
  have hparse : (pythonParser tree? options).parse source = pythonRawTree options source root := by
    simp only [pythonParser, answer]
  have hrows : ∀ n ∈ root.preorder,
      (lineOfRow n.label.startPoint.row).toNat = n.label.startPoint.row + 1 ∧
        (lineOfRow n.label.endPoint.row).toNat = n.label.endPoint.row + 1 :=
    fun n hn => ⟨(within n hn).start, (within n hn).stop⟩
  cases hraw : pythonRawTree options source root with
  | error e =>
    obtain ⟨n, hn, what, rfl⟩ :=
      exists_fault_of_pythonRawTree (fun n hn => (places n hn).slice) hraw
    have hreport := SourceParser.report_of_error (hparse.trans hraw)
    obtain ⟨hstart, -, hordered, hlt⟩ := within n hn
    have hline : n.startLine.toNat = n.label.startPoint.row + 1 := hstart
    simp only [report, hreport]
    refine ⟨fun _ => ⟨n.startLine.toNat, what.message, rfl, ?_, ?_⟩,
      fun success => absurd success Bool.false_ne_true, hrows⟩
    · omega
    · show n.startLine.toNat ≤ countLines source
      omega
  | ok raw =>
    have hreport := SourceParser.report_of_ok (hparse.trans hraw)
    simp only [report, hreport]
    refine ⟨fun failure => absurd failure.symm Bool.false_ne_true,
      fun _ wanted => ⟨_, _, rfl, rfl, ?_⟩, hrows⟩
    have hentries := linesWithin_of_mem_entries wanted within (lower_of_pythonRawTree hraw) {}
    refine ⟨hentries, fun e he => hentries e ?_, fun s hs => hentries _ ?_⟩
    · exact (NumberedNode.nodes_flatten_perm _).mem_iff.1 he
    · rw [← entries_hierarchy]
      exact List.mem_map_of_mem hs

/-- Two statements on two lines, of which a line feed ends the second. -/
def twoLines : SyntaxNode :=
  let node (kind : String) (start stop : Nat) (first last : Point) (children : List SyntaxNode) :
      SyntaxNode :=
    ⟨⟨kind, true, false, false, false, false, none, start, stop, first, last⟩, children⟩
  node "module" 0 5 ⟨0, 0⟩ ⟨2, 0⟩
    [node "pass_statement" 0 2 ⟨0, 0⟩ ⟨0, 2⟩ [], node "pass_statement" 3 4 ⟨1, 0⟩ ⟨1, 1⟩ []]

theorem lines_of_report_twoLines :
    ("é\na\n".utf8ByteSize < 2 ^ 32 - 1) ∧
    (∀ n ∈ twoLines.preorder, n.StandsIn "é\na\n") ∧
    ∃ tree, ((pythonParser (fun _ => some twoLines) { includePositions := true }).report
      "é\na\n").tree = some tree ∧ ∀ e ∈ tree.toNumbered.entries, e.LinesWithin 3 := by
  have short : "é\na\n".utf8ByteSize < 2 ^ 32 - 1 := by decide
  have places : ∀ n ∈ twoLines.preorder, n.StandsIn "é\na\n" := by decide
  obtain ⟨raw, hraw⟩ : ∃ raw,
      (pythonParser (fun _ => some twoLines) { includePositions := true }).parse "é\na\n" =
        .ok raw := by
    show ∃ raw, pythonRawTree { includePositions := true } "é\na\n" twoLines = .ok raw
    rw [pythonRawTree_of_plain rfl rfl]
    have slices : ∀ n ∈ twoLines.preorder,
        (Text.sliceBytes "é\na\n" n.label.startByte n.label.endByte).isSome :=
      fun n hn => (places n hn).slice
    exact (Lowering.exists_lower_iff (l := ⟨pythonSchema, "é\na\n", _⟩) slices).2 (by decide)
  have hreport := SourceParser.report_of_ok hraw
  obtain ⟨-, hsuccess, -⟩ := lines_of_report (fun _ => some twoLines) { includePositions := true }
    "é\na\n" twoLines rfl short places
  rw [hreport] at hsuccess ⊢
  obtain ⟨tree, -, htree, -, hentries, -⟩ := hsuccess rfl rfl
  exact ⟨short, places, tree, htree, hentries⟩

end SyntaxGraph
