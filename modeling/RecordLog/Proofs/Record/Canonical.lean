import RecordLog.Proofs.RoundTrip

/-! # One written form for each record

A record keeps no trace of the order in which its fields were set, so it is written in one way
however it came about: in the order of its names.  What is written also shows where it ends.  A
search for the first record gives back the record and its length whatever stands behind, so bytes
that begin with two written records begin with one.

* `Edit`, `Record.edited`: a record made by setting fields, taking fields away and starting anew.
* `lastValue`: the value of a name, by the latest edit that touched it.
* `Record.get?_edited`: the fields of a record are what its edits made of each name.
* `Record.eq_of_toObject_append_eq`: no written record begins another.
* `Record.encode_canonical`: records are written alike exactly if they have the same fields.
-/

namespace RecordLog

open Format

/-! ## Edits -/

/-- What may be done to a record. -/
inductive Edit where
  /-- Sets the value of a field. -/
  | insert (name value : String)
  /-- Takes a field away. -/
  | erase (name : String)
  /-- Starts anew from these fields. -/
  | collect (fields : List (String × String))
  deriving DecidableEq, Repr

def Edit.apply (r : Record) : Edit → Record
  | insert name value => r.insert name value
  | erase name => r.erase name
  | collect fields => .ofList fields

/-- The record that edits make, one after another, of a record without fields. -/
def Record.edited (edits : List Edit) : Record :=
  edits.foldl Edit.apply ∅

/-- The value of a name after edits of which the latest comes first: the latest that touches the
name decides. -/
def lastValue (name : String) : List Edit → Option String
  | [] => none
  | .insert other value :: earlier => if other = name then some value else lastValue name earlier
  | .erase other :: earlier => if other = name then none else lastValue name earlier
  | .collect fields :: _ => fields.reverse.lookup name

namespace Record

theorem getElem?_foldl_insert (fields : List (String × String)) (start : Fields) (name : String) :
    (fields.foldl (fun made f => made.insert f.1 f.2) start)[name]? =
      (fields.reverse.lookup name).or start[name]? := by
  induction fields generalizing start with
  | nil => rfl
  | cons field fields ih =>
    have hone : (start.insert field.1 field.2)[name]? = ([field].lookup name).or start[name]? := by
      rw [Std.ExtTreeMap.getElem?_insert, List.lookup_cons, List.lookup_nil]
      simp only [Std.compare_eq_iff_eq]
      by_cases hname : field.1 = name
      · rw [if_pos hname, beq_iff_eq.mpr hname.symm]
        rfl
      · rw [if_neg hname, beq_eq_false_iff_ne.mpr (Ne.symm hname)]
        rfl
    rw [List.foldl_cons, ih, hone, List.reverse_cons, List.lookup_append, Option.or_assoc]

/-- Of two values for one name the last stands. -/
theorem get?_ofList (fields : List (String × String)) (name : String) :
    (ofList fields).get? name = fields.reverse.lookup name := by
  rw [get?, ofList, Std.ExtTreeMap.ofList_eq_foldl, getElem?_foldl_insert,
    Std.ExtTreeMap.getElem?_empty, Option.or_none]

theorem get?_insert (r : Record) (other value name : String) :
    (r.insert other value).get? name = if other = name then some value else r.get? name := by
  rw [get?, insert, Std.ExtTreeMap.getElem?_insert]
  simp only [Std.compare_eq_iff_eq]
  rfl

theorem get?_erase (r : Record) (other name : String) :
    (r.erase other).get? name = if other = name then none else r.get? name := by
  rw [get?, erase, Std.ExtTreeMap.getElem?_erase]
  simp only [Std.compare_eq_iff_eq]
  rfl

/-- **One edit makes of a name what it is to make of it**, and leaves the other names. -/
theorem get?_apply {r : Record} {name : String} {earlier : List Edit}
    (h : r.get? name = lastValue name earlier) (edit : Edit) :
    (edit.apply r).get? name = lastValue name (edit :: earlier) := by
  cases edit with
  | insert other value => rw [Edit.apply, get?_insert, lastValue, h]
  | erase other => rw [Edit.apply, get?_erase, lastValue, h]
  | collect fields => exact get?_ofList fields name

/-- **The fields of a record are what its edits made of each name.** -/
theorem get?_edited (edits : List Edit) (name : String) :
    (edited edits).get? name = lastValue name edits.reverse := by
  rw [edited, List.foldl_eq_foldr_reverse]
  induction edits.reverse with
  | nil => exact Std.ExtTreeMap.getElem?_empty
  | cons edit earlier ih => exact get?_apply ih edit

/-! ## What is written -/

theorem fields_eq_iff {r s : Record} : r.fields = s.fields ↔ ∀ name, r.get? name = s.get? name :=
  ⟨fun h name => by rw [get?, get?, h], fun h => Std.ExtTreeMap.ext_getElem? fun name => h name⟩

theorem toObject_congr {r s : Record} (h : r.fields = s.fields) : r.toObject = s.toObject := by
  rw [toObject, toObject, toList, toList, h]

/-- **No written record begins another**, nor one with other bytes behind it. -/
theorem eq_of_toObject_append_eq {r s : Record} (hr : r.Valid) (hs : s.Valid) {rest rest' : Bytes}
    (h : r.toObject ++ rest = s.toObject ++ rest') : r.fields = s.fields ∧ rest = rest' := by
  have hfound := find?_toObject_append hr rest
  rw [h, find?_toObject_append hs rest'] at hfound
  have hfields : r.fields = s.fields := (congrArg Located.fields (Option.some.inj hfound)).symm
  rw [toObject_congr hfields] at h
  exact ⟨hfields, List.append_cancel_left h⟩

theorem pairwise_toList (r : Record) :
    r.toList.Pairwise fun f g => Utf8.encode f.1 < Utf8.encode g.1 := by
  have hnames : (r.toList.map Prod.fst).Pairwise fun a b => Utf8.encode a < Utf8.encode b := by
    rw [toList, Std.ExtTreeMap.map_fst_toList_eq_keys]
    exact r.pairwise_keys
  rwa [List.pairwise_map] at hnames

theorem mem_toList_iff {r : Record} {name value : String} :
    (name, value) ∈ r.toList ↔ r.get? name = some value :=
  Std.ExtTreeMap.mem_toList_iff_getElem?_eq_some

/-- **A record has one written form, and no written record begins another.**  However a record was
made, it is written as an object with its fields in ascending order of the bytes of their names,
each with the value that the latest edit of it set.  So two records are written alike exactly if
their edits came to the same values in the end, in whatever order they were made.  And bytes that
begin with two written records begin with the same record, and go on alike behind it. -/
theorem encode_canonical :
    (∀ edits : List Edit, (edited edits).Valid →
      ∃ (written : Bytes) (fields : List (String × String)),
      (edited edits).encode = .ok written ∧
      IsObject written (fields.map encoded) ∧
      fields.Pairwise (fun f g => Utf8.encode f.1 < Utf8.encode g.1) ∧
      (∀ name value, (name, value) ∈ fields ↔ lastValue name edits.reverse = some value) ∧
      ∀ others : List Edit, (edited others).Valid →
        ((edited edits).encode = (edited others).encode ↔
          ∀ name, lastValue name edits.reverse = lastValue name others.reverse)) ∧
    ∀ r s : Record, r.Valid → s.Valid → ∃ written written',
      r.encode = .ok written ∧ s.encode = .ok written' ∧
      ∀ rest rest' : Bytes, written ++ rest = written' ++ rest' →
        (r == s) = true ∧ rest = rest' := by
  have hencode {r : Record} (hr : r.Valid) : r.encode = .ok r.toObject :=
    encode_eq_ok_iff.mpr ⟨hr, rfl⟩
  refine ⟨fun edits hr => ⟨_, _, hencode hr, isObject_object _, pairwise_toList _,
    fun name value => ?_, fun others hs => ?_⟩, fun r s hr hs =>
    ⟨_, _, hencode hr, hencode hs, fun rest rest' h => ?_⟩⟩
  · rw [mem_toList_iff, get?_edited]
  · simp only [← get?_edited, ← fields_eq_iff]
    rw [hencode hr, hencode hs]
    refine ⟨fun h => ?_, fun h => congrArg Except.ok (toObject_congr h)⟩
    have hsame : (edited edits).toObject ++ [] = (edited others).toObject ++ [] :=
      congrArg (· ++ []) (Except.ok.inj h)
    exact (eq_of_toObject_append_eq hr hs hsame).1
  · obtain ⟨hfields, hrest⟩ := eq_of_toObject_append_eq hr hs h
    exact ⟨beq_iff.mpr hfields, hrest⟩

/-- Fields collected with one name twice, one more set and taken away, and the same fields set the
other way round; and a value that looks like another field. -/
theorem encode_canonical_reordered :
    (edited [.collect [("b", "1"), ("a\"", "\\"), ("b", "2")], .insert "c" "x", .erase "c"]).Valid ∧
    (edited [.insert "b" "2", .insert "a\"" "\\"]).Valid ∧
    (∃ written,
      (edited [.collect [("b", "1"), ("a\"", "\\"), ("b", "2")], .insert "c" "x",
        .erase "c"]).encode = .ok written ∧
      (edited [.insert "b" "2", .insert "a\"" "\\"]).encode = .ok written) ∧
    (ofList [("a", "")]).Valid ∧ (ofList [("a", "\",\"b\":\"")]).Valid ∧
    ∃ written written', (ofList [("a", "")]).encode = .ok written ∧
      (ofList [("a", "\",\"b\":\"")]).encode = .ok written' ∧
      ∀ rest rest', written ++ rest ≠ written' ++ rest' := by
  have hr : (edited [.collect [("b", "1"), ("a\"", "\\"), ("b", "2")], .insert "c" "x",
      .erase "c"]).Valid := by decide +kernel
  have hs : (edited [.insert "b" "2", .insert "a\"" "\\"]).Valid := by decide +kernel
  obtain ⟨written, fields, hwritten, -, -, -, hothers⟩ := encode_canonical.1 _ hr
  have hsame : (edited [.insert "b" "2", .insert "a\"" "\\"]).encode = .ok written := by
    rw [← hwritten, eq_comm, hothers _ hs]
    intro name
    by_cases hc : "c" = name
    · subst hc
      decide +kernel
    by_cases ha : "a\"" = name
    · subst ha
      decide +kernel
    by_cases hb : "b" = name
    · subst hb
      decide +kernel
    simp [lastValue, List.lookup_cons, hc, ha, hb, beq_eq_false_iff_ne.mpr (Ne.symm ha),
      beq_eq_false_iff_ne.mpr (Ne.symm hb)]
  have hplain : (ofList [("a", "")]).Valid := by decide +kernel
  have hquoted : (ofList [("a", "\",\"b\":\"")]).Valid := by decide +kernel
  obtain ⟨short, long, hshort, hlong, hbegin⟩ := encode_canonical.2 _ _ hplain hquoted
  refine ⟨hr, hs, ⟨written, hwritten, hsame⟩, hplain, hquoted, short, long, hshort, hlong,
    fun rest rest' h => ?_⟩
  have hdiffer : (ofList [("a", "")] == ofList [("a", "\",\"b\":\"")]) = false := by decide +kernel
  rw [(hbegin rest rest' h).1] at hdiffer
  cases hdiffer

end Record

end RecordLog
