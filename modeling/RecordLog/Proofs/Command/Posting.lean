import Mathlib.Data.List.TakeDrop
import Mathlib.Data.List.TakeWhile
import RecordLog.Command.Run
import RecordLog.Proofs.Failure
import RecordLog.Proofs.Record

/-! # The record that a command posts

A command posts the record of a user, a message and fields, of which the last one for a name
stands, so a field may take the place of the user or of the message.  Every field must have an
equals sign; its name is what stands before the first one, and its value all that stands behind.

* `recordOf`: the record of the arguments of a command.
* `postRecord_eq_ok_iff`: the arguments make a record exactly when every field has an equals sign,
  and then that one.
* `Postable`: the arguments of which a record may be written.
-/

namespace RecordLog.Command

/-! ## Fields -/

/-- The text before the first equals sign, and the text behind it. -/
def nameAndValue (argument : String) : String × String :=
  (String.ofList (argument.toList.takeWhile (· != '=')),
    String.ofList (argument.toList.dropWhile (· != '=')).tail)

theorem fieldOfArgument_eq_ok_iff {argument : String} {field : String × String} :
    fieldOfArgument argument = .ok field ↔
      '=' ∈ argument.toList ∧ field = nameAndValue argument := by
  rw [fieldOfArgument, splitAtEquals, List.span_eq_takeWhile_dropWhile, nameAndValue]
  cases hdrop : argument.toList.dropWhile (· != '=') with
  | nil =>
    have hne : '=' ∉ argument.toList := by
      intro hmem
      have hpassed := List.dropWhile_eq_nil_iff.mp hdrop '=' hmem
      simp at hpassed
    constructor
    · intro h
      cases h
    · rintro ⟨hmem, -⟩
      exact absurd hmem hne
  | cons c after =>
    have hmem : '=' ∈ argument.toList := by
      by_contra hne
      have hnil : argument.toList.dropWhile (· != '=') = [] := by
        refine List.dropWhile_eq_nil_iff.mpr fun d hd => bne_iff_ne.mpr ?_
        rintro rfl
        exact hne hd
      rw [hdrop] at hnil
      cases hnil
    constructor
    · intro h
      exact ⟨hmem, (Except.ok.inj h).symm⟩
    · rintro ⟨-, rfl⟩
      rfl

theorem mapM_fieldOfArgument_eq_ok_iff {arguments : List String} {fields : List (String × String)} :
    arguments.mapM fieldOfArgument = .ok fields ↔
      (∀ argument ∈ arguments, '=' ∈ argument.toList) ∧ fields = arguments.map nameAndValue := by
  induction arguments generalizing fields with
  | nil =>
    constructor
    · intro h
      exact ⟨List.forall_mem_nil _, (Except.ok.inj h).symm⟩
    · rintro ⟨-, rfl⟩
      rfl
  | cons argument arguments ih =>
    rw [List.mapM_cons, List.forall_mem_cons, bind_eq_ok_iff]
    constructor
    · rintro ⟨field, hfield, hrest⟩
      obtain ⟨more, hmore, hfields⟩ := bind_eq_ok_iff.mp hrest
      obtain ⟨hmem, rfl⟩ := fieldOfArgument_eq_ok_iff.mp hfield
      obtain ⟨hall, rfl⟩ := ih.mp hmore
      exact ⟨⟨hmem, hall⟩, (Except.ok.inj hfields).symm⟩
    · rintro ⟨⟨hmem, hall⟩, rfl⟩
      exact ⟨_, fieldOfArgument_eq_ok_iff.mpr ⟨hmem, rfl⟩,
        bind_eq_ok_iff.mpr ⟨_, ih.mpr ⟨hall, rfl⟩, rfl⟩⟩

/-! ## Records -/

/-- The record of a user, a message and fields; the last value for a name stands. -/
def recordOf (user msg : String) (fields : List String) : Record :=
  .ofList (("user", user) :: ("msg", msg) :: fields.map nameAndValue)

theorem foldl_insert (fields : List (String × String)) (r : Record) :
    fields.foldl (fun r (name, value) => r.insert name value) r =
      { r with fields := fields.foldl (fun all field => all.insert field.1 field.2) r.fields } := by
  induction fields generalizing r with
  | nil => rfl
  | cons field fields ih =>
    rw [List.foldl_cons, List.foldl_cons, ih]
    rfl

/-- **The arguments make a record exactly when every field has an equals sign.** -/
theorem postRecord_eq_ok_iff {user msg : String} {fields : List String} {r : Record} :
    postRecord user msg fields = .ok r ↔
      (∀ field ∈ fields, '=' ∈ field.toList) ∧ r = recordOf user msg fields := by
  have hrecord : (fields.map nameAndValue).foldl (fun r (name, value) => r.insert name value)
      ((Record.insert ∅ "user" user).insert "msg" msg) = recordOf user msg fields := by
    rw [foldl_insert, recordOf, Record.ofList, Std.ExtTreeMap.ofList_eq_foldl]
    rfl
  rw [postRecord, bind_eq_ok_iff]
  constructor
  · rintro ⟨split, hsplit, h⟩
    obtain ⟨hall, rfl⟩ := mapM_fieldOfArgument_eq_ok_iff.mp hsplit
    rw [← hrecord]
    exact ⟨hall, (Except.ok.inj h).symm⟩
  · rintro ⟨hall, rfl⟩
    rw [← hrecord]
    exact ⟨_, mapM_fieldOfArgument_eq_ok_iff.mpr ⟨hall, rfl⟩, rfl⟩

/-- The arguments make a record that may be written. -/
def Postable (user msg : String) (fields : List String) : Prop :=
  (∀ field ∈ fields, '=' ∈ field.toList) ∧ (recordOf user msg fields).Valid

instance (user msg : String) (fields : List String) : Decidable (Postable user msg fields) :=
  inferInstanceAs (Decidable (_ ∧ _))

theorem Postable.postRecord {user msg : String} {fields : List String}
    (h : Postable user msg fields) : postRecord user msg fields = .ok (recordOf user msg fields) :=
  postRecord_eq_ok_iff.mpr ⟨h.1, rfl⟩

theorem Postable.encode {user msg : String} {fields : List String} (h : Postable user msg fields) :
    (recordOf user msg fields).encode = .ok (recordOf user msg fields).toObject :=
  Record.encode_eq_ok_iff.mpr ⟨h.2, rfl⟩

theorem exists_error_of_not_postable {user msg : String} {fields : List String}
    (h : ¬ Postable user msg fields) : ∃ e, postRecord user msg fields = .error e ∨
      ∃ r, postRecord user msg fields = .ok r ∧ r.encode = .error e := by
  cases hrecord : Command.postRecord user msg fields with
  | error e => exact ⟨e, .inl rfl⟩
  | ok r =>
    obtain ⟨hall, rfl⟩ := postRecord_eq_ok_iff.mp hrecord
    cases hencode : (recordOf user msg fields).encode with
    | error e => exact ⟨e, .inr ⟨_, rfl, hencode⟩⟩
    | ok object => exact absurd ⟨hall, (Record.encode_eq_ok_iff.mp hencode).1⟩ h

end RecordLog.Command
