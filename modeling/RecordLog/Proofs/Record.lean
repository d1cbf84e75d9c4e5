import RecordLog.Format.Object
import RecordLog.Proofs.Text.Order

/-! # Records and their fields

* `ofList_toList`: the fields of a record, in order, make these fields again.
* `Record.pairwise_keys`: the names of a record are in the order of their bytes.
* `Record.encode_eq_ok_iff`: a record is written exactly when all its names are valid, and then as
  the object of its fields.
* `Record.Refused`, `Record.validate_eq_error_iff`: a record that is not written is refused for the
  smallest of its names that are not valid.
-/

namespace RecordLog

theorem ofList_toList (fields : Fields) : (.ofList fields.toList : Fields) = fields := by
  apply Std.ExtTreeMap.ext_getElem?
  intro name
  cases h : fields[name]? with
  | some value =>
    exact Std.ExtTreeMap.getElem?_ofList_of_mem Std.ReflCmp.compare_self
      Std.ExtTreeMap.distinct_keys_toList (Std.ExtTreeMap.mem_toList_iff_getElem?_eq_some.mpr h)
  | none =>
    apply Std.ExtTreeMap.getElem?_ofList_of_contains_eq_false
    rw [Std.ExtTreeMap.map_fst_toList_eq_keys]
    simpa using h

theorem mem_of_mem_toList_ofList {fields : List (String × String)} {field : String × String}
    (h : field ∈ (.ofList fields : Fields).toList) : field ∈ fields := by
  rw [Std.ExtTreeMap.mem_toList_iff_getElem?_eq_some, Std.ExtTreeMap.ofList_eq_insertMany_empty,
    Std.ExtTreeMap.getElem?_insertMany_list, Std.ExtTreeMap.getElem?_empty, Option.or_none,
    List.findSomeRev?_eq_findSome?_reverse] at h
  obtain ⟨⟨name, value⟩, hmem, hfound⟩ := List.exists_of_findSome?_eq_some h
  obtain ⟨hname, hvalue⟩ := Option.ite_none_right_eq_some.mp hfound
  have hfield : (name, value) = field :=
    Prod.ext (Std.LawfulEqCmp.eq_of_compare hname) (Option.some.inj hvalue)
  exact hfield ▸ List.mem_reverse.mp hmem

namespace Record

/-- **The names of a record are in the order of their bytes.** -/
theorem pairwise_keys (r : Record) :
    r.fields.keys.Pairwise fun a b => Utf8.encode a < Utf8.encode b := by
  refine (Std.ExtTreeMap.ordered_keys (t := r.fields)).imp fun {a b} h => ?_
  have hcompare : compareOfLessAndEq a b = .lt := h
  exact Utf8.encode_lt_encode (compareOfLessAndEq_eq_lt.mp hcompare)

theorem valid_iff {r : Record} : r.Valid ↔ ∀ field ∈ r.toList, FieldName.Valid field.1 := by
  rw [Valid, ← Std.ExtTreeMap.map_fst_toList_eq_keys, List.forall_mem_map]
  rfl

theorem forM_validate {names : List String} :
    names.forM FieldName.validate = .ok () ↔ ∀ name ∈ names, FieldName.Valid name := by
  induction names with
  | nil => simp [pure, Except.pure]
  | cons name names ih =>
    rw [List.forM_eq_forM, List.forM_cons, List.forall_mem_cons, FieldName.validate, ← ih]
    by_cases h : FieldName.Valid name
    · rw [if_pos h]
      exact ⟨fun e => ⟨h, e⟩, fun e => e.2⟩
    · rw [if_neg h]
      exact ⟨fun e => (by cases e), fun e => absurd e.1 h⟩

theorem validate_eq_ok_iff {r : Record} : r.validate = .ok () ↔ r.Valid :=
  forM_validate

/-- **A record is written exactly when all its names are valid.** -/
theorem encode_eq_ok_iff {r : Record} {written : Bytes} :
    r.encode = .ok written ↔ r.Valid ∧ written = r.toObject := by
  rw [encode, ← validate_eq_ok_iff]
  cases r.validate with
  | error e => exact ⟨fun h => (by cases h), fun h => absurd h.1 (by simp)⟩
  | ok u => exact ⟨fun h => ⟨rfl, (Except.ok.inj h).symm⟩, fun h => congrArg Except.ok h.2.symm⟩

/-! ## Records that are refused -/

/-- The smallest of the names that may not be written, in the order of bytes. -/
structure Refused (r : Record) (name : String) : Prop where
  mem : name ∈ r.fields.keys
  not_valid : ¬ FieldName.Valid name
  least : ∀ other ∈ r.fields.keys, ¬ FieldName.Valid other → Utf8.encode name ≤ Utf8.encode other

theorem exists_of_forM_validate_eq_error {names : List String} {e : Error}
    (h : names.forM FieldName.validate = .error e) :
    ∃ before name after, names = before ++ name :: after ∧
      (∀ other ∈ before, FieldName.Valid other) ∧ ¬ FieldName.Valid name ∧
      e = .invalidFieldName name := by
  induction names with
  | nil => cases h
  | cons name names ih =>
    rw [List.forM_eq_forM, List.forM_cons, FieldName.validate] at h
    by_cases hname : FieldName.Valid name
    · rw [if_pos hname] at h
      obtain ⟨before, bad, after, rfl, hbefore, hbad, rfl⟩ := ih h
      exact ⟨name :: before, bad, after, rfl, List.forall_mem_cons.mpr ⟨hname, hbefore⟩, hbad, rfl⟩
    · rw [if_neg hname] at h
      exact ⟨[], name, names, rfl, List.forall_mem_nil _, hname, (Except.error.inj h).symm⟩

theorem exists_refused_of_validate_eq_error {r : Record} {e : Error} (h : r.validate = .error e) :
    ∃ name, r.Refused name ∧ e = .invalidFieldName name := by
  obtain ⟨before, name, after, hkeys, hbefore, hname, rfl⟩ := exists_of_forM_validate_eq_error h
  have hordered := r.pairwise_keys
  rw [hkeys] at hordered
  obtain ⟨-, hbehind, -⟩ := List.pairwise_append.mp hordered
  refine ⟨name, ⟨?_, hname, fun other hother hbad => ?_⟩, rfl⟩
  · rw [hkeys]
    simp
  · rw [hkeys] at hother
    rcases List.mem_append.mp hother with hmem | hmem
    · exact absurd (hbefore other hmem) hbad
    · rcases List.mem_cons.mp hmem with rfl | hmem
      · exact List.le_refl _
      · exact List.lt_asymm (List.rel_of_pairwise_cons hbehind hmem)

theorem Refused.unique {r : Record} {name other : String} (h : r.Refused name)
    (h' : r.Refused other) : name = other := by
  have hsame : Utf8.encode name = Utf8.encode other :=
    List.le_antisymm (h.least other h'.mem h'.not_valid) (h'.least name h.mem h.not_valid)
  rw [← Utf8.decodeLossy_encode name, hsame, Utf8.decodeLossy_encode]

theorem Refused.not_valid_record {r : Record} {name : String} (h : r.Refused name) : ¬ r.Valid :=
  fun hr => h.not_valid (hr name h.mem)

/-- **A record is refused for the smallest of its names that are not valid.** -/
theorem validate_eq_error_iff {r : Record} {e : Error} :
    r.validate = .error e ↔ ∃ name, r.Refused name ∧ e = .invalidFieldName name := by
  constructor
  · exact exists_refused_of_validate_eq_error
  · rintro ⟨name, hname, rfl⟩
    cases h : r.validate with
    | ok u => exact absurd (validate_eq_ok_iff.mp h) hname.not_valid_record
    | error e =>
      obtain ⟨first, hfirst, rfl⟩ := exists_refused_of_validate_eq_error h
      rw [hfirst.unique hname]

theorem encode_of_refused {r : Record} {name : String} (h : r.Refused name) :
    r.encode = .error (.invalidFieldName name) := by
  rw [encode, validate_eq_error_iff.mpr ⟨name, h, rfl⟩]
  rfl

theorem refused_or_valid (r : Record) : (∃ name, r.Refused name) ∨ r.Valid := by
  cases h : r.validate with
  | ok u => exact .inr (validate_eq_ok_iff.mp h)
  | error e =>
    obtain ⟨name, hname, -⟩ := exists_refused_of_validate_eq_error h
    exact .inl ⟨name, hname⟩

end Record

end RecordLog
