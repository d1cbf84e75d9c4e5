import RecordLog.Proofs.Format.Spacing
import RecordLog.Proofs.Record
import RecordLog.Record.Json

/-! # Objects, read as JSON

An object with any escapes and blanks is read as JSON if the lexer makes out every character from
what is written for it, and is refused as soon as there is one that it does not.  JSON itself escapes
all that it has to.  The format of a log does not: a character below U+0020 may stand in it as it is,
where JSON does not allow one.

* `Reaches`: what reading some characters does to a lexer, on a condition.
* `Reads`: the characters that are made out from what is written for them.
* `object?_objectBy_iff`: an object is read if all its characters are made out, and only then.
* `reads_escapeChar_log`, `reads_escapeChar`: for the escapes of a log, and those of JSON.
* `Record.ofJson?_toJson`, `Record.ofJson?_toPrettyJson`: JSON of a record is read as that record.
-/

namespace RecordLog

namespace Json

/-! ## What reading does to a lexer -/

/-- Reading these characters takes one lexer to another on a condition, and fails without it. -/
structure Reaches (ok : Prop) (written : List Char) (l l' : Lexer) : Prop where
  of_ok : ok → written.foldlM Lexer.step l = some l'
  of_not : ¬ ok → written.foldlM Lexer.step l = none

section

variable {p q : Prop} {written more : List Char} {l m n : Lexer}

theorem reaches_of_eq (h : written.foldlM Lexer.step l = some m) : Reaches True written l m :=
  ⟨fun _ => h, fun hnot => absurd trivial hnot⟩

theorem Reaches.congr (h : Reaches p written l m) (hpq : p ↔ q) : Reaches q written l m :=
  ⟨fun hq => h.of_ok (hpq.mpr hq), fun hq => h.of_not (mt hpq.mp hq)⟩

theorem Reaches.append (h : Reaches p written l m) (hmore : Reaches q more m n) :
    Reaches (p ∧ q) (written ++ more) l n := by
  constructor
  · rintro ⟨hp, hq⟩
    rw [List.foldlM_append, h.of_ok hp]
    exact hmore.of_ok hq
  · intro hnot
    rw [List.foldlM_append]
    by_cases hp : p
    · rw [h.of_ok hp]
      exact hmore.of_not fun hq => hnot ⟨hp, hq⟩
    · rw [h.of_not hp]
      rfl

theorem Reaches.after (h : Reaches True written l m) (hmore : Reaches q more m n) :
    Reaches q (written ++ more) l n :=
  (h.append hmore).congr (and_iff_right trivial)

theorem Reaches.before (h : Reaches p written l m) (hmore : Reaches True more m n) :
    Reaches p (written ++ more) l n :=
  (h.append hmore).congr (and_iff_left trivial)

end

/-! ## Texts -/

/-- Inside a text, a character is made out from what is written for it on a condition. -/
def Reads (ok : Char → Prop) (esc : Char → List Char) : Prop :=
  ∀ (c : Char) (tokens : List Token) (codes : List Nat),
    Reaches (ok c) (esc c) ⟨tokens, .text codes⟩ ⟨tokens, .text (c.toNat :: codes)⟩

theorem step_quote (tokens : List Token) (codes : List Nat) :
    Lexer.step ⟨tokens, .text codes⟩ '"' = (joinUnits [] codes).map fun text =>
      { tokens := .text (String.ofList text) :: tokens } := rfl

theorem joinUnits_map_toNat (cs joined : List Char) :
    joinUnits joined (cs.map Char.toNat) = some (cs.reverse ++ joined) := by
  induction cs generalizing joined with
  | nil => rfl
  | cons c cs ih =>
    have hlow : isLowSurrogate c.toNat = false := by
      have hc := Utf8.toNat_bounds c
      simp only [isLowSurrogate, Bool.and_eq_false_iff, decide_eq_false_iff_not]
      omega
    have hhigh : isHighSurrogate c.toNat = false := by
      have hc := Utf8.toNat_bounds c
      simp only [isHighSurrogate, Bool.and_eq_false_iff, decide_eq_false_iff_not]
      omega
    have hjoin : joinUnits joined ((c :: cs).map Char.toNat) =
        joinUnits (Char.ofNat c.toNat :: joined) (cs.map Char.toNat) := by
      rw [List.map_cons, joinUnits.eq_def]
      simp only [hlow, hhigh, Bool.false_eq_true, if_false]
    rw [hjoin, ih, Char.ofNat_toNat, List.reverse_cons, List.append_assoc]
    rfl

/-- The tokens of a field. -/
def fieldTokens (field : String × String) : List Token :=
  [.text field.1, .colon, .text field.2]

section

variable {ok : Char → Prop} {esc : Char → List Char} {s : Spacing} (tokens : List Token)

/-- Every character of a text is made out. -/
def AllOk (ok : Char → Prop) (text : String) : Prop :=
  ∀ c ∈ text.toList, ok c

theorem Reads.reaches_flatMap (h : Reads ok esc) (cs : List Char) (codes : List Nat) :
    Reaches (∀ c ∈ cs, ok c) (cs.flatMap esc) ⟨tokens, .text codes⟩
      ⟨tokens, .text ((cs.map Char.toNat).reverse ++ codes)⟩ := by
  induction cs generalizing codes with
  | nil => exact (reaches_of_eq rfl).congr (iff_of_true trivial (List.forall_mem_nil _))
  | cons c cs ih =>
    rw [List.flatMap_cons, List.map_cons, List.reverse_cons, List.append_assoc]
    exact ((h c tokens codes).append (ih (c.toNat :: codes))).congr List.forall_mem_cons.symm

theorem Reads.reaches_quotedBy (h : Reads ok esc) (text : String) :
    Reaches (AllOk ok text) (quotedBy esc text) { tokens } { tokens := .text text :: tokens } := by
  have hopen : Reaches True ['"'] { tokens } ⟨tokens, .text []⟩ := reaches_of_eq rfl
  have hclose : Reaches True ['"'] ⟨tokens, .text (text.toList.map Char.toNat).reverse⟩
      { tokens := .text text :: tokens } := by
    have hjoin := joinUnits_map_toNat text.toList.reverse []
    rw [List.reverse_reverse, List.append_nil, List.map_reverse] at hjoin
    refine reaches_of_eq ?_
    rw [List.foldlM_cons, step_quote, hjoin, Option.map_some, String.ofList_toList]
    rfl
  have htext := h.reaches_flatMap tokens text.toList []
  rw [List.append_nil] at htext
  exact hopen.after (htext.before hclose)

theorem reaches_blanks {gap : List Char} (h : ∀ c ∈ gap, c ∈ blanks) :
    Reaches True gap { tokens } { tokens } := by
  induction gap with
  | nil => exact reaches_of_eq rfl
  | cons c gap ih =>
    obtain ⟨hc, hgap⟩ := List.forall_mem_cons.mp h
    have hblank : Reaches True [c] { tokens } { tokens } := by
      refine reaches_of_eq ?_
      rcases List.mem_cons.mp hc with rfl | hc
      · rfl
      simp only [List.mem_cons, List.not_mem_nil, or_false] at hc
      rcases hc with rfl | rfl | rfl <;> rfl
    exact hblank.after (ih hgap)

/-! ## Objects -/

/-- Every character of a field is made out. -/
def FieldOk (ok : Char → Prop) (field : String × String) : Prop :=
  AllOk ok field.1 ∧ AllOk ok field.2

theorem Reads.reaches_memberBy (h : Reads ok esc) (hs : s.IsBlank) (field : String × String) :
    Reaches (FieldOk ok field) (memberBy esc s field) { tokens }
      { tokens := (fieldTokens field).reverse ++ tokens } := by
  have hcolon : Reaches True [':'] { tokens := .text field.1 :: tokens }
      { tokens := .colon :: .text field.1 :: tokens } := reaches_of_eq rfl
  have hgap := hcolon.after (reaches_blanks _ hs.value)
  have hvalue := hgap.after (h.reaches_quotedBy _ field.2)
  rw [memberBy, ← List.singleton_append, ← List.append_assoc [':']]
  exact (h.reaches_quotedBy tokens field.1).append hvalue

theorem Reads.reaches_more (h : Reads ok esc) (hs : s.IsBlank) (fields : List (String × String)) :
    Reaches (∀ field ∈ fields, FieldOk ok field)
      (fields.flatMap fun f => ',' :: (s.name ++ memberBy esc s f)) { tokens }
      { tokens := (fields.flatMap fun f => .comma :: fieldTokens f).reverse ++ tokens } := by
  induction fields generalizing tokens with
  | nil => exact (reaches_of_eq rfl).congr (iff_of_true trivial (List.forall_mem_nil _))
  | cons field fields ih =>
    have hcomma : Reaches True [','] { tokens } { tokens := .comma :: tokens } :=
      reaches_of_eq rfl
    have hfield := hcomma.after ((reaches_blanks _ hs.name).after (h.reaches_memberBy _ hs field))
    rw [List.flatMap_cons, List.flatMap_cons, List.reverse_append, List.append_assoc]
    exact (hfield.append (ih _)).congr List.forall_mem_cons.symm

/-- The tokens of an object. -/
def objectTokens : List (String × String) → List Token
  | [] => [.openBrace, .closeBrace]
  | field :: fields =>
    .openBrace :: (fieldTokens field ++ fields.flatMap fun f => .comma :: fieldTokens f) ++
      [.closeBrace]

theorem Reads.reaches_objectBy (h : Reads ok esc) (hs : s.IsBlank) (fields : List (String × String)) :
    Reaches (∀ field ∈ fields, FieldOk ok field) (objectBy esc s fields) {}
      { tokens := (objectTokens fields).reverse } := by
  have hbrace : Reaches True ['{'] {} { tokens := [.openBrace] } := reaches_of_eq rfl
  have hopen := hbrace.after (reaches_blanks _ hs.name)
  have hclose (tokens : List Token) : Reaches True (s.close ++ ['}']) { tokens }
      { tokens := .closeBrace :: tokens } :=
    (reaches_blanks _ hs.close).after (reaches_of_eq rfl)
  cases fields with
  | nil =>
    rw [objectBy_nil]
    exact (hopen.after (hclose _)).congr (iff_of_true trivial (List.forall_mem_nil _))
  | cons field fields =>
    have hmembers := ((h.reaches_memberBy [.openBrace] hs field).append (h.reaches_more _ hs fields)).congr
      List.forall_mem_cons.symm
    have hobject := (hopen.after hmembers).before (hclose _)
    rw [objectBy_cons, objectTokens]
    simpa using hobject

theorem members?_tokens (field : String × String) (fields : List (String × String)) :
    members? (fieldTokens field ++ (fields.flatMap fun f => .comma :: fieldTokens f) ++
      [.closeBrace]) = some (field :: fields) := by
  induction fields generalizing field with
  | nil => rfl
  | cons next fields ih =>
    have hrest : (.comma :: fieldTokens next ++ fields.flatMap fun f => .comma :: fieldTokens f) ++
        [.closeBrace] = .comma :: (fieldTokens next ++
          (fields.flatMap fun f => .comma :: fieldTokens f) ++ [.closeBrace]) := rfl
    rw [List.flatMap_cons, List.append_assoc, hrest]
    show (members? _).map ((field.1, field.2) :: ·) = _
    rw [ih next]
    rfl

/-- **An object is read as JSON** if all its characters are made out, and only then. -/
theorem object?_objectBy_iff (h : Reads ok esc) (hs : s.IsBlank)
    {fields members : List (String × String)} :
    object? (objectBy esc s fields) = some members ↔
      (∀ field ∈ fields, FieldOk ok field) ∧ members = fields := by
  have hreaches := h.reaches_objectBy hs fields
  by_cases hok : ∀ field ∈ fields, FieldOk ok field
  · have hread : object? (objectBy esc s fields) = some fields := by
      rw [object?, tokens?, hreaches.of_ok hok]
      simp only [List.reverse_reverse]
      cases fields with
      | nil => rfl
      | cons field fields => exact members?_tokens field fields
    rw [hread, Option.some_inj]
    exact ⟨fun heq => ⟨hok, heq.symm⟩, fun h => h.2.symm⟩
  · have hread : object? (objectBy esc s fields) = none := by
      rw [object?, tokens?, hreaches.of_not hok]
    rw [hread]
    exact ⟨fun heq => (by cases heq), fun h => absurd h.1 hok⟩

end

/-! ## The escapes of a log and of JSON -/

theorem step_of_ne {c : Char} (hquote : c ≠ '"') (hbackslash : c ≠ '\\') (tokens : List Token)
    (codes : List Nat) : Lexer.step ⟨tokens, .text codes⟩ c =
      if c.toNat < 0x20 then none else some ⟨tokens, .text (c.toNat :: codes)⟩ := by
  simp only [Lexer.step, if_neg hquote, if_neg hbackslash]

theorem reaches_of_ne {c : Char} (hquote : c ≠ '"') (hbackslash : c ≠ '\\') (tokens : List Token)
    (codes : List Nat) : Reaches (0x20 ≤ c.toNat) [c] ⟨tokens, .text codes⟩
      ⟨tokens, .text (c.toNat :: codes)⟩ := by
  constructor
  · intro hc
    rw [List.foldlM_cons, step_of_ne hquote hbackslash, if_neg (Nat.not_lt.mpr hc)]
    rfl
  · intro hc
    rw [List.foldlM_cons, step_of_ne hquote hbackslash, if_pos (Nat.not_le.mp hc)]
    rfl

/-- **JSON makes out what a log writes for a character from U+0020 on**, and nothing else. -/
theorem reads_escapeChar_log : Reads (fun c => 0x20 ≤ c.toNat) Format.escapeChar := by
  intro c tokens codes
  by_cases hesc : c = '"' ∨ c = '\\'
  · rw [Format.escapeChar, if_pos hesc]
    have hread : Reaches True ['\\', c] ⟨tokens, .text codes⟩
        ⟨tokens, .text (c.toNat :: codes)⟩ := by
      rcases hesc with rfl | rfl <;> exact reaches_of_eq rfl
    have hc : 0x20 ≤ c.toNat := by
      rcases hesc with rfl | rfl <;> decide
    exact hread.congr (iff_of_true trivial hc)
  · rw [Format.escapeChar, if_neg hesc]
    obtain ⟨hquote, hbackslash⟩ := not_or.mp hesc
    exact reaches_of_ne hquote hbackslash tokens codes

theorem hexDigit?_digitChar : ∀ n < 16, hexDigit? (Nat.digitChar n) = some n := by
  decide

theorem reaches_number {n : Nat} (hn : n < 0x100) (tokens : List Token) (codes : List Nat) :
    Reaches True ['\\', 'u', '0', '0', Nat.digitChar (n / 16), Nat.digitChar (n % 16)]
      ⟨tokens, .text codes⟩ ⟨tokens, .text (n :: codes)⟩ := by
  have hzeros : Reaches True ['\\', 'u', '0', '0'] ⟨tokens, .text codes⟩
      ⟨tokens, .number codes 2 0⟩ := reaches_of_eq rfl
  have hhigh := hexDigit?_digitChar (n / 16) (by omega)
  have hlow := hexDigit?_digitChar (n % 16) (by omega)
  have hvalue : n / 16 * 16 + n % 16 = n := Nat.div_add_mod' n 16
  have hdigits : Reaches True [Nat.digitChar (n / 16), Nat.digitChar (n % 16)]
      ⟨tokens, .number codes 2 0⟩ ⟨tokens, .text (n :: codes)⟩ := by
    refine reaches_of_eq ?_
    simp [Lexer.step, hhigh, hlow, hvalue]
  exact hzeros.after hdigits

/-- **JSON makes out all that it writes.** -/
theorem reads_escapeChar : Reads (fun _ => True) escapeChar := by
  intro c tokens codes
  unfold escapeChar
  split
  case h_8 hquote hbackslash _ _ _ _ _ =>
    split
    next hc => exact reaches_number (by omega) tokens codes
    next hc =>
      exact (reaches_of_ne hquote hbackslash tokens codes).congr
        (iff_of_true (Nat.not_lt.mp hc) trivial)
  all_goals exact reaches_of_eq rfl

end Json

/-! ## Records -/

namespace Record

open Json

variable {ok : Char → Prop} {esc : Char → List Char} {s : Spacing} {r read : Record}

/-- **A record is read from its object** if all its characters are made out, and else nothing is. -/
theorem ofJson?_objectBy_iff (h : Reads ok esc) (hs : s.IsBlank) :
    ofJson? (String.ofList (objectBy esc s r.toList)) = some read ↔
      (∀ field ∈ r.toList, FieldOk ok field) ∧ read = { fields := r.fields } := by
  have hfields : ofList r.toList = { fields := r.fields } := by
    rw [ofList, toList, ofList_toList]
  rw [ofJson?, String.toList_ofList, Option.map_eq_some_iff, ← hfields]
  constructor
  · rintro ⟨members, hmembers, rfl⟩
    obtain ⟨hok, rfl⟩ := (object?_objectBy_iff h hs).mp hmembers
    exact ⟨hok, rfl⟩
  · rintro ⟨hok, rfl⟩
    exact ⟨_, (object?_objectBy_iff h hs).mpr ⟨hok, rfl⟩, rfl⟩

theorem ofJson?_objectBy_escapeChar (hs : s.IsBlank) (r : Record) :
    ofJson? (String.ofList (objectBy Json.escapeChar s r.toList)) =
      some { fields := r.fields } :=
  (ofJson?_objectBy_iff reads_escapeChar hs).mpr
    ⟨fun _ _ => ⟨fun _ _ => trivial, fun _ _ => trivial⟩, rfl⟩

/-- **JSON of a record is read as that record.** -/
theorem ofJson?_toJson (r : Record) : ofJson? r.toJson = some { fields := r.fields } := by
  rw [toJson, object_eq]
  exact ofJson?_objectBy_escapeChar Spacing.isBlank_none r

/-- **Indented JSON of a record is read as that record.** -/
theorem ofJson?_toPrettyJson (r : Record) :
    ofJson? r.toPrettyJson = some { fields := r.fields } := by
  obtain ⟨s, hs, hpretty⟩ := exists_prettyObject_eq r.toList
  rw [toPrettyJson, hpretty]
  exact ofJson?_objectBy_escapeChar hs r

end Record

end RecordLog
