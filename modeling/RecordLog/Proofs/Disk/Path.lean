import RecordLog.Disk.Path

/-! # Texts and pieces of paths

A path is its pieces with a slash between each two, so a path that some of its pieces make is the
beginning of its text, and is no more likely to be refused.

* `intercalate_pieces`: the pieces of a path make its text.
* `trimmed_eq_pieces`: a path that does not end in a slash ends in a piece that is not empty.
* `exists_of_mem_ancestors`: a directory that a path leads through has the first of its pieces.
* `check_of_append`: the beginning of a path is a path, unless it is empty.
-/

namespace RecordLog.Path

/-! ## Pieces -/

theorem splitAtSlashes_eq (cs : List Char) : splitAtSlashes cs = cs.splitOn '/' := by
  induction cs with
  | nil => exact (List.splitOn_nil '/').symm
  | cons c cs ih =>
    rw [splitAtSlashes, ih, List.splitOn_cons_eq_if_modifyHead]
    by_cases h : c = '/'
    · rw [if_pos h, if_pos (beq_iff_eq.mpr h)]
    · rw [if_neg h, if_neg (mt beq_iff_eq.mp h)]
      cases hsplit : cs.splitOn '/' with
      | nil => exact absurd hsplit (List.splitOn_ne_nil '/' cs)
      | cons piece more => rfl

theorem not_mem_splitAtSlashes (cs : List Char) : ∀ piece ∈ splitAtSlashes cs, '/' ∉ piece := by
  induction cs with
  | nil =>
    intro piece hpiece
    obtain rfl := List.mem_singleton.mp hpiece
    exact List.not_mem_nil
  | cons c cs ih =>
    rw [splitAtSlashes]
    by_cases h : c = '/'
    · rw [if_pos h]
      exact List.forall_mem_cons.mpr ⟨List.not_mem_nil, ih⟩
    · rw [if_neg h]
      cases hsplit : splitAtSlashes cs with
      | nil =>
        intro piece hpiece
        obtain rfl := List.mem_singleton.mp hpiece
        exact mt List.mem_singleton.mp (Ne.symm h)
      | cons first more =>
        rw [hsplit] at ih
        obtain ⟨hfirst, hmore⟩ := List.forall_mem_cons.mp ih
        refine List.forall_mem_cons.mpr ⟨?_, hmore⟩
        rw [List.mem_cons]
        exact not_or.mpr ⟨Ne.symm h, hfirst⟩

theorem intercalate_pieces (p : Path) : "/".intercalate p.pieces = p.text := by
  have hmap : (p.pieces.map String.toList) = p.text.toList.splitOn '/' := by
    rw [pieces, List.map_map, ← splitAtSlashes_eq]
    exact (List.map_congr_left fun cs _ => String.toList_ofList).trans (List.map_id _)
  apply String.toList_inj.mp
  rw [String.toList_intercalate, hmap]
  exact List.intercalate_splitOn '/'

theorem pieces_intercalate {way : List String} (hne : way ≠ [])
    (hway : ∀ piece ∈ way, '/' ∉ piece.toList) :
    pieces { text := "/".intercalate way } = way := by
  have hsplit : splitAtSlashes ("/".intercalate way).toList = way.map String.toList := by
    rw [splitAtSlashes_eq, String.toList_intercalate]
    refine List.splitOn_intercalate '/' ?_ (by simpa using hne)
    simpa using hway
  rw [pieces, hsplit, List.map_map]
  exact (List.map_congr_left fun piece _ => String.ofList_toList).trans (List.map_id _)

theorem not_mem_pieces (p : Path) : ∀ piece ∈ p.pieces, '/' ∉ piece.toList := by
  intro piece hpiece
  obtain ⟨cs, hcs, rfl⟩ := List.mem_map.mp hpiece
  rw [String.toList_ofList]
  exact not_mem_splitAtSlashes _ cs hcs

/-! ## The last piece -/

theorem trimmed_of_getLast?_ne {p : Path} (h : p.pieces.getLast? ≠ some "") :
    p.trimmed = p.pieces := by
  rw [trimmed]
  rw [← List.head?_reverse] at h
  cases hreverse : p.pieces.reverse with
  | nil => exact (List.reverse_eq_nil_iff.mp hreverse).symm
  | cons piece before =>
    rw [hreverse, List.head?_cons] at h
    have hpiece : piece ≠ "" := fun e => h (congrArg some e)
    have hdrop : (piece :: before).dropWhile (· == "") = piece :: before :=
      List.dropWhile_cons_of_neg (mt beq_iff_eq.mp hpiece)
    rw [hdrop, ← hreverse, List.reverse_reverse]

theorem trimmed_eq_pieces {p : Path} (hne : p.text ≠ "") (h : p.endsInSlash = false) :
    p.trimmed = p.pieces := by
  refine trimmed_of_getLast?_ne fun hlast => ?_
  obtain ⟨before, hpieces⟩ := List.getLast?_eq_some_iff.mp hlast
  have htext := p.intercalate_pieces
  rw [hpieces] at htext
  cases before with
  | nil => exact hne (htext.symm.trans String.intercalate_singleton)
  | cons piece before =>
    rw [String.intercalate_append_of_ne_nil (List.cons_ne_nil _ _) (List.cons_ne_nil _ _)] at htext
    have hslash : p.endsInSlash = true := by
      rw [endsInSlash, ← htext, beq_iff_eq]
      simp
    rw [hslash] at h
    cases h

theorem exists_pieces_of_endsInSlash {p : Path} (h : p.endsInSlash = true) :
    ∃ before, p.pieces = before ++ [""] := by
  obtain ⟨before, htext⟩ := List.getLast?_eq_some_iff.mp (beq_iff_eq.mp h)
  refine ⟨(before.splitOn '/').map String.ofList, ?_⟩
  rw [pieces, splitAtSlashes_eq, htext, List.splitOn_append_cons_self, List.map_append]
  rfl

/-! ## The directories on the way -/

theorem exists_of_mem_stops {before : List String} {way : List String} (h : way ∈ stops before) :
    ∃ piece rest skipped, before = skipped ++ piece :: rest ∧ way = (piece :: rest).reverse ∧
      isIdle piece = false := by
  induction before with
  | nil => cases h
  | cons piece before ih =>
    rw [stops] at h
    by_cases hidle : isIdle piece = true
    · rw [if_pos hidle] at h
      obtain ⟨piece', rest, skipped, rfl, rfl, hpiece'⟩ := ih h
      exact ⟨piece', rest, piece :: skipped, rfl, rfl, hpiece'⟩
    · rw [if_neg hidle] at h
      rcases List.mem_cons.mp h with rfl | hmore
      · exact ⟨piece, before, [], rfl, rfl, eq_false_of_ne_true hidle⟩
      · obtain ⟨piece', rest, skipped, rfl, rfl, hpiece'⟩ := ih hmore
        exact ⟨piece', rest, piece :: skipped, rfl, rfl, hpiece'⟩

/-- All stops but the first leave something of the path behind them. -/
theorem exists_of_mem_tail_stops {before : List String} {way : List String}
    (h : way ∈ (stops before).tail) :
    ∃ piece rest skipped, before = skipped ++ piece :: rest ∧ way = (piece :: rest).reverse ∧
      isIdle piece = false ∧ skipped ≠ [] := by
  cases before with
  | nil => cases h
  | cons piece before =>
    rw [stops] at h
    have hmem : way ∈ stops before := by
      by_cases hidle : isIdle piece = true
      · rw [if_pos hidle] at h
        exact List.mem_of_mem_tail h
      · rwa [if_neg hidle] at h
    obtain ⟨piece', rest, skipped, rfl, rfl, hpiece'⟩ := exists_of_mem_stops hmem
    exact ⟨piece', rest, piece :: skipped, rfl, rfl, hpiece', List.cons_ne_nil _ _⟩

/-- **A directory that a path leads through has the first of its pieces**, and ends in one that
leads somewhere. -/
theorem exists_of_mem_ancestors {p a : Path} (h : a ∈ p.ancestors) :
    ∃ more, more ≠ [] ∧ p.pieces = a.pieces ++ more ∧ a.trimmed = a.pieces ∧
      p.text = a.text ++ "/" ++ "/".intercalate more ∧ a.text ≠ "" := by
  obtain ⟨way, hway, rfl⟩ := List.mem_map.mp h
  obtain ⟨piece, rest, skipped, hpieces, rfl, hpiece, hskipped⟩ := exists_of_mem_tail_stops hway
  have hsplit : p.pieces = (piece :: rest).reverse ++ skipped.reverse := by
    rw [← List.reverse_append, ← hpieces, List.reverse_reverse]
  have hne : (piece :: rest).reverse ≠ [] := by simp
  have hmore : skipped.reverse ≠ [] := by simpa using hskipped
  have hsame : pieces { text := "/".intercalate (piece :: rest).reverse } =
      (piece :: rest).reverse := by
    refine pieces_intercalate hne fun other hother => p.not_mem_pieces other ?_
    rw [hsplit]
    exact List.mem_append_left _ hother
  have hlast : (piece :: rest).reverse.getLast? = some piece := by
    rw [List.getLast?_reverse, List.head?_cons]
  have hempty : piece ≠ "" := by
    rintro rfl
    cases hpiece
  refine ⟨skipped.reverse, hmore, by rw [hsame, hsplit], trimmed_of_getLast?_ne ?_, ?_, ?_⟩
  · rw [hsame, hlast]
    exact fun e => hempty (Option.some.inj e)
  · rw [← p.intercalate_pieces, hsplit, String.intercalate_append_of_ne_nil hne hmore]
  · intro htext
    have hpieces' : pieces { text := "/".intercalate (piece :: rest).reverse } = [""] :=
      congrArg (fun text => pieces { text }) htext
    rw [← hsame, hpieces'] at hlast
    exact hempty (Option.some.inj hlast).symm

/-! ## Texts that may be paths -/

theorem check_eq_ok_iff {p : Path} : p.check = .ok () ↔
    '\x00' ∉ p.text.toList ∧ p.text ≠ "" ∧ p.text.utf8ByteSize ≤ textLimit := by
  rw [check]
  by_cases hnul : '\x00' ∈ p.text.toList
  · simp [hnul]
  by_cases hempty : p.text = ""
  · simp [hempty]
  by_cases hlong : textLimit < p.text.utf8ByteSize
  · simp [hnul, hempty, hlong]
  · simp [hnul, hempty, hlong]
    omega

theorem check_of_append {p a : Path} {more : String} (h : p.check = .ok ())
    (htext : p.text = a.text ++ more) (hne : a.text ≠ "") : a.check = .ok () := by
  obtain ⟨hnul, -, hlong⟩ := check_eq_ok_iff.mp h
  rw [htext, String.toList_append, List.mem_append] at hnul
  rw [htext, String.utf8ByteSize_append] at hlong
  exact check_eq_ok_iff.mpr ⟨fun hmem => hnul (.inl hmem), hne, by omega⟩

end RecordLog.Path
