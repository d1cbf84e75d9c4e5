import RecordLog.Format.Grammar
import RecordLog.Format.Reading

/-! # A reading takes exactly the objects of the grammar

`Format.read` goes through an object byte by byte, and the grammar says what an object is as a
whole.  This file joins them by what a reading still expects: for every state, the bytes that lead
from there to the closing brace.

* `State.Completes`: the bytes that complete an object from a state, and the object's members.
* `State.completes_cons`: what a state expects, split at its first byte, is one step of a reading.
* `State.run_eq_object_iff`: a reading under way ends with an object exactly on such bytes.
* `read_eq_object_iff`: a reading ends with an object exactly where bytes begin with one.
* `IsObject.eq_of_append_eq`: bytes begin with at most one object.
-/

namespace RecordLog.Format

/-! ## Parts of an object -/

/-- A mark behind blanks, and `next` behind the mark. -/
def Past (mark : UInt8) (next : Bytes → Prop) (bytes : Bytes) : Prop :=
  ∃ gap rest, Blank gap ∧ bytes = gap ++ mark :: rest ∧ next rest

/-- The rest of a text and its closing quote, and `next` behind the quote.  What was read of the
text is kept last first. -/
def Closing (text : Bytes) (next : Bytes → Bytes → Prop) (bytes : Bytes) : Prop :=
  ∃ written meant rest, Spells written meant ∧ bytes = written ++ quote :: rest ∧
    next (text.reverse ++ meant) rest

/-- Members behind the ones read, and the closing brace. -/
def Further (done : List RawMember) (bytes : Bytes) (ms : List RawMember) : Prop :=
  ∃ more gap further, AreMore more further ∧ Blank gap ∧ bytes = more ++ gap ++ [closeBrace] ∧
    ms = done.reverse ++ further

/-- The rest of a value, and what may follow it. -/
def InValue (done : List RawMember) (key text bytes : Bytes) (ms : List RawMember) : Prop :=
  Closing text (fun value rest => Further ((key, value) :: done) rest ms) bytes

/-- The value that is due behind a colon. -/
def BeforeValue (done : List RawMember) (key : Bytes) (ms : List RawMember) : Bytes → Prop :=
  Past quote fun rest => InValue done key [] rest ms

/-- The rest of a name, and what may follow it. -/
def InName (done : List RawMember) (text bytes : Bytes) (ms : List RawMember) : Prop :=
  Closing text (fun key rest => Past colon (BeforeValue done key ms) rest) bytes

/-- The name that is due, with its value and what may follow. -/
def BeforeName (done : List RawMember) (ms : List RawMember) : Bytes → Prop :=
  Past quote fun rest => InName done [] rest ms

theorem past_cons {mark b : UInt8} {next : Bytes → Prop} {bytes : Bytes}
    (hmark : isBlank mark = false) :
    Past mark next (b :: bytes) ↔
      if b = mark then next bytes else isBlank b = true ∧ Past mark next bytes := by
  constructor
  · rintro ⟨gap, rest, hgap, e, h⟩
    cases gap with
    | nil =>
      obtain ⟨rfl, rfl⟩ := List.cons.inj e
      rwa [if_pos rfl]
    | cons c gap =>
      obtain ⟨rfl, rfl⟩ := List.cons.inj e
      obtain ⟨hb, hgap⟩ := blank_cons.mp hgap
      rw [if_neg (by rintro rfl; rw [hb] at hmark; cases hmark)]
      exact ⟨hb, gap, rest, hgap, rfl, h⟩
  · intro h
    by_cases hb : b = mark
    · subst hb
      rw [if_pos rfl] at h
      exact ⟨[], bytes, blank_nil, rfl, h⟩
    · rw [if_neg hb] at h
      obtain ⟨hb, gap, rest, hgap, rfl, h⟩ := h
      exact ⟨b :: gap, rest, blank_cons.mpr ⟨hb, hgap⟩, rfl, h⟩

/-- Within a text: the first byte is a backslash before a byte meant as itself, the closing quote,
or a byte of the text. -/
theorem closing_cons {text : Bytes} {next : Bytes → Bytes → Prop} {b : UInt8} {bytes : Bytes} :
    Closing text next (b :: bytes) ↔
      if b = backslash then ∃ c rest, bytes = c :: rest ∧ Closing (c :: text) next rest
      else if b = quote then next text.reverse bytes
      else Closing (b :: text) next bytes := by
  constructor
  · rintro ⟨written, meant, rest, hspells, e, h⟩
    cases hspells with
    | nil =>
      obtain ⟨rfl, rfl⟩ := List.cons.inj e
      rw [if_neg (by decide), if_pos rfl]
      simpa using h
    | @plain c written meant hquote hbackslash hspells =>
      obtain ⟨rfl, rfl⟩ := List.cons.inj e
      rw [if_neg hbackslash, if_neg hquote]
      exact ⟨written, meant, rest, hspells, rfl, by simpa using h⟩
    | @escaped c written meant hspells =>
      obtain ⟨rfl, rfl⟩ := List.cons.inj e
      rw [if_pos rfl]
      exact ⟨c, _, rfl, written, meant, rest, hspells, rfl, by simpa using h⟩
  · intro h
    split at h
    · next hb =>
      subst hb
      obtain ⟨c, _, rfl, written, meant, rest, hspells, rfl, h⟩ := h
      exact ⟨_, _, rest, .escaped c hspells, rfl, by simpa using h⟩
    · split at h
      · next hb =>
        subst hb
        exact ⟨[], [], bytes, .nil, rfl, by simpa using h⟩
      · next hbackslash hquote =>
        obtain ⟨written, meant, rest, hspells, rfl, h⟩ := h
        exact ⟨_, _, rest, .plain hquote hbackslash hspells, rfl, by simpa using h⟩

/-- A due name, its value and what follows are a member behind blanks, and what follows. -/
theorem beforeName_iff {done ms : List RawMember} {bytes : Bytes} :
    BeforeName done ms bytes ↔ ∃ gap written rest m, Blank gap ∧ IsMember written m ∧
      bytes = gap ++ written ++ rest ∧ Further (m :: done) rest ms := by
  constructor
  · rintro ⟨gap, _, hgap, rfl, name, key, _, hname, rfl, before, _, hbefore, rfl, after, _, hafter,
      rfl, written, value, rest, hwritten, rfl, h⟩
    exact ⟨gap, _, rest, (key, value), hgap, .mk hname hbefore hafter hwritten, by simp,
      by simpa using h⟩
  · rintro ⟨gap, _, rest, m, hgap, hmember, rfl, h⟩
    cases hmember with
    | @mk name value before after _ hname hbefore hafter hvalue =>
      exact ⟨gap, _, hgap, by simp, name, _, _, hname, rfl, before, _, hbefore, rfl, after, _,
        hafter, rfl, value, _, rest, hvalue, rfl, by simpa using h⟩

theorem further_cons {done ms : List RawMember} {b : UInt8} {bytes : Bytes} :
    Further done (b :: bytes) ms ↔
      if b = comma then BeforeName done ms bytes
      else if b = closeBrace then bytes = [] ∧ ms = done.reverse
      else isBlank b = true ∧ Further done bytes ms := by
  constructor
  · rintro ⟨more, gap, further, hmore, hgap, e, rfl⟩
    cases hmore with
    | nil =>
      cases gap with
      | nil =>
        obtain ⟨rfl, rfl⟩ := List.cons.inj e
        rw [if_neg (by decide), if_pos rfl]
        exact ⟨rfl, by simp⟩
      | cons c gap =>
        obtain ⟨rfl, rfl⟩ := List.cons.inj e
        obtain ⟨hb, hgap⟩ := blank_cons.mp hgap
        rw [if_neg (by rintro rfl; cases hb), if_neg (by rintro rfl; cases hb)]
        exact ⟨hb, [], gap, [], .nil, hgap, rfl, rfl⟩
    | @cons before after written more m further hbefore hafter hmember hmore =>
      cases before with
      | nil =>
        obtain ⟨rfl, rfl⟩ := List.cons.inj e
        rw [if_pos rfl]
        exact beforeName_iff.mpr ⟨after, written, _, m, hafter, hmember, by simp; rfl, more, gap,
          further, hmore, hgap, by simp, by simp⟩
      | cons c before =>
        obtain ⟨rfl, rfl⟩ := List.cons.inj e
        obtain ⟨hb, hbefore⟩ := blank_cons.mp hbefore
        rw [if_neg (by rintro rfl; cases hb), if_neg (by rintro rfl; cases hb)]
        exact ⟨hb, _, gap, _, .cons hbefore hafter hmember hmore, hgap, rfl, rfl⟩
  · intro h
    split at h
    · next hb =>
      subst hb
      obtain ⟨after, written, _, m, hafter, hmember, rfl, more, gap, further, hmore, hgap, rfl,
        rfl⟩ := beforeName_iff.mp h
      exact ⟨_, gap, _, .cons blank_nil hafter hmember hmore, hgap, by simp, by simp⟩
    · split at h
      · next hb =>
        obtain ⟨rfl, rfl⟩ := h
        subst hb
        exact ⟨[], [], [], .nil, blank_nil, rfl, by simp⟩
      · obtain ⟨hb, more, gap, further, hmore, hgap, rfl, rfl⟩ := h
        cases hmore with
        | nil => exact ⟨[], b :: gap, [], .nil, blank_cons.mpr ⟨hb, hgap⟩, rfl, rfl⟩
        | cons hbefore hafter hmember hmore =>
          exact ⟨_, gap, _, .cons (blank_cons.mpr ⟨hb, hbefore⟩) hafter hmember hmore, hgap, rfl,
            rfl⟩

/-! ## What a state expects -/

/-- The bytes that complete an object of which a reading has got this far, and its members. -/
def State.Completes : State → Bytes → List RawMember → Prop
  | opening, bytes, ms =>
    Past closeBrace (fun rest => rest = [] ∧ ms = []) bytes ∨ BeforeName [] ms bytes
  | nameDue done, bytes, ms => BeforeName done ms bytes
  | name done text, bytes, ms => InName done text bytes ms
  | nameEscape done text, bytes, ms => ∃ b rest, bytes = b :: rest ∧ InName done (b :: text) rest ms
  | colonDue done key, bytes, ms => Past colon (BeforeValue done key ms) bytes
  | valueDue done key, bytes, ms => BeforeValue done key ms bytes
  | value done key text, bytes, ms => InValue done key text bytes ms
  | valueEscape done key text, bytes, ms =>
    ∃ b rest, bytes = b :: rest ∧ InValue done key (b :: text) rest ms
  | separatorDue done, bytes, ms => Further done bytes ms

theorem exists_cons_eq_iff {b : UInt8} {bytes : Bytes} {p : UInt8 → Bytes → Prop} :
    (∃ c rest, b :: bytes = c :: rest ∧ p c rest) ↔ p b bytes := by
  constructor
  · rintro ⟨c, rest, e, h⟩
    obtain ⟨rfl, rfl⟩ := List.cons.inj e
    exact h
  · intro h
    exact ⟨b, bytes, rfl, h⟩

theorem State.not_completes_nil {state : State} {ms : List RawMember} :
    ¬ state.Completes [] ms := by
  cases state <;>
    simp [Completes, BeforeName, BeforeValue, InName, InValue, Past, Closing, Further]

/-- **What a state expects, split at its first byte, is one step of a reading.** -/
theorem State.completes_cons {state : State} {b : UInt8} {bytes : Bytes} {ms : List RawMember} :
    state.Completes (b :: bytes) ms ↔
      match state.step b with
      | .next state => state.Completes bytes ms
      | .close found => bytes = [] ∧ ms = found
      | .fail => False := by
  cases state with
  | opening =>
    by_cases hquote : b = quote
    · subst hquote
      have hclose : quote ≠ closeBrace := by decide
      simp [Completes, step, BeforeName, past_cons isBlank_quote, past_cons isBlank_closeBrace,
        isBlank_quote, hclose]
    · by_cases hclose : b = closeBrace
      · subst hclose
        simp [Completes, step, BeforeName, past_cons isBlank_quote,
          past_cons isBlank_closeBrace, isBlank_closeBrace, hquote]
      · by_cases hblank : isBlank b = true <;>
          simp [Completes, step, BeforeName, past_cons isBlank_quote,
            past_cons isBlank_closeBrace, hquote, hclose, hblank]
  | nameDue done =>
    by_cases hquote : b = quote <;> by_cases hblank : isBlank b = true <;>
      simp [Completes, step, BeforeName, past_cons isBlank_quote, hquote, hblank]
  | name done text =>
    by_cases hbackslash : b = backslash
    · simp [Completes, step, InName, closing_cons, hbackslash]
    · by_cases hquote : b = quote
      · subst hquote
        simp [Completes, step, InName, closing_cons, hbackslash]
      · simp [Completes, step, InName, closing_cons, hbackslash, hquote]
  | nameEscape done text => simp only [Completes, step, exists_cons_eq_iff]
  | colonDue done key =>
    by_cases hcolon : b = colon <;> by_cases hblank : isBlank b = true <;>
      simp [Completes, step, past_cons isBlank_colon, hcolon, hblank]
  | valueDue done key =>
    by_cases hquote : b = quote <;> by_cases hblank : isBlank b = true <;>
      simp [Completes, step, BeforeValue, past_cons isBlank_quote, hquote, hblank]
  | value done key text =>
    by_cases hbackslash : b = backslash
    · simp [Completes, step, InValue, closing_cons, hbackslash]
    · by_cases hquote : b = quote
      · subst hquote
        simp [Completes, step, InValue, closing_cons, hbackslash]
      · simp [Completes, step, InValue, closing_cons, hbackslash, hquote]
  | valueEscape done key text => simp only [Completes, step, exists_cons_eq_iff]
  | separatorDue done =>
    by_cases hcomma : b = comma
    · simp [Completes, step, further_cons, hcomma]
    · by_cases hclose : b = closeBrace
      · subst hclose
        simp [Completes, step, further_cons, hcomma]
      · by_cases hblank : isBlank b = true <;>
          simp [Completes, step, further_cons, hcomma, hclose, hblank]

/-! ## Readings and objects -/

theorem State.run_eq_object_iff {state : State} {taken n : Nat} {bytes : Bytes}
    {ms : List RawMember} :
    state.run taken bytes = .object ms n ↔ ∃ written rest, bytes = written ++ rest ∧
      n = taken + written.length ∧ state.Completes written ms := by
  induction bytes generalizing state taken with
  | nil =>
    constructor
    · intro h; cases h
    · rintro ⟨written, rest, e, -, h⟩
      obtain ⟨rfl, -⟩ := List.append_eq_nil_iff.mp e.symm
      exact absurd h not_completes_nil
  | cons b bytes ih =>
    rw [run]
    constructor
    · intro h
      cases hstep : state.step b with
      | next state' =>
        rw [hstep] at h
        obtain ⟨written, rest, rfl, rfl, hw⟩ := ih.mp h
        refine ⟨b :: written, rest, rfl, by simp only [List.length_cons]; omega, ?_⟩
        rw [completes_cons, hstep]
        exact hw
      | close found =>
        rw [hstep] at h
        obtain ⟨rfl, rfl⟩ := Reading.object.inj h
        refine ⟨[b], bytes, rfl, rfl, ?_⟩
        rw [completes_cons, hstep]
        exact ⟨rfl, rfl⟩
      | fail =>
        rw [hstep] at h
        cases h
    · rintro ⟨written, rest, e, rfl, hw⟩
      cases written with
      | nil => exact absurd hw not_completes_nil
      | cons c written =>
        obtain ⟨rfl, rfl⟩ := List.cons.inj e
        rw [completes_cons] at hw
        cases hstep : state.step b with
        | next state' =>
          rw [hstep] at hw
          exact ih.mpr ⟨written, rest, rfl, by simp only [List.length_cons]; omega, hw⟩
        | close found =>
          rw [hstep] at hw
          obtain ⟨rfl, rfl⟩ := hw
          rfl
        | fail =>
          rw [hstep] at hw
          exact hw.elim

theorem isObject_iff {bytes : Bytes} {ms : List RawMember} :
    IsObject bytes ms ↔ ∃ rest, bytes = openBrace :: rest ∧ State.opening.Completes rest ms := by
  constructor
  · intro h
    cases h with
    | @empty gap hgap => exact ⟨_, rfl, .inl ⟨gap, [], hgap, rfl, rfl, rfl⟩⟩
    | @members before after written more m ms hbefore hmember hmore hafter =>
      exact ⟨_, rfl, .inr (beforeName_iff.mpr ⟨before, written, more ++ after ++ [closeBrace], m,
        hbefore, hmember, by simp, more, after, ms, hmore, hafter, rfl, rfl⟩)⟩
  · rintro ⟨_, rfl, ⟨gap, _, hgap, rfl, rfl, rfl⟩ | h⟩
    · exact .empty hgap
    · obtain ⟨before, written, _, m, hbefore, hmember, rfl, more, after, ms, hmore, hafter, rfl,
        rfl⟩ := beforeName_iff.mp h
      simpa using IsObject.members hbefore hmember hmore hafter

theorem IsObject.two_le_length {written : Bytes} {ms : List RawMember} (h : IsObject written ms) :
    2 ≤ written.length := by
  obtain ⟨rest, rfl, hrest⟩ := isObject_iff.mp h
  cases rest with
  | nil => exact absurd hrest State.not_completes_nil
  | cons b rest =>
    simp only [List.length_cons]
    omega

theorem IsObject.exists_between {written : Bytes} {ms : List RawMember} (h : IsObject written ms) :
    ∃ between, written = openBrace :: between ++ [closeBrace] := by
  cases h with
  | empty _ => exact ⟨_, rfl⟩
  | members _ _ _ _ => exact ⟨_, rfl⟩

/-- **A reading ends with an object exactly where bytes begin with one.** -/
theorem read_eq_object_iff {bytes : Bytes} {ms : List RawMember} {n : Nat} :
    read bytes = .object ms n ↔
      ∃ written rest, bytes = written ++ rest ∧ n = written.length ∧ IsObject written ms := by
  cases bytes with
  | nil => simp [read, isObject_iff]
  | cons b bytes =>
    by_cases hb : b = openBrace
    · subst hb
      rw [read, if_pos rfl, State.run_eq_object_iff]
      constructor
      · rintro ⟨written, rest, rfl, rfl, h⟩
        exact ⟨openBrace :: written, rest, rfl, by simp only [List.length_cons]; omega,
          isObject_iff.mpr ⟨written, rfl, h⟩⟩
      · rintro ⟨_, rest, e, rfl, h⟩
        obtain ⟨written, rfl, hwritten⟩ := isObject_iff.mp h
        exact ⟨written, rest, (List.cons.inj e).2, by simp only [List.length_cons]; omega,
          hwritten⟩
    · rw [read, if_neg hb]
      constructor
      · intro h; cases h
      · rintro ⟨_, rest, e, -, h⟩
        obtain ⟨written, rfl, -⟩ := isObject_iff.mp h
        exact absurd (List.cons.inj e).1 hb

theorem IsObject.read_append {written : Bytes} {ms : List RawMember} (h : IsObject written ms)
    (rest : Bytes) : read (written ++ rest) = .object ms written.length :=
  read_eq_object_iff.mpr ⟨written, rest, rfl, rfl, h⟩

/-- **Bytes begin with at most one object.** -/
theorem IsObject.eq_of_append_eq {written written' rest rest' : Bytes} {ms ms' : List RawMember}
    (h : IsObject written ms) (h' : IsObject written' ms')
    (e : written ++ rest = written' ++ rest') : written = written' ∧ ms = ms' := by
  have hread := h.read_append rest
  rw [e, h'.read_append rest'] at hread
  obtain ⟨rfl, hlength⟩ := Reading.object.inj hread
  exact ⟨(List.append_inj e hlength.symm).1, rfl⟩

end RecordLog.Format
