import Mwdd32.Util.FormatAppend
import Mwdd32.Util.RoundTrip
import Mwdd32.Util.Strtok

/-!
# Records of numbers

A record is printed by one call of `vsprintf` with a separator between its conversions, and read by
`strtok` and `strtol` or `strtoul`. The separator is none of the characters of a number.

* `vsprintf_record`: the text of a record is that of its fields, with the separators.
* `fields_intercalate`: `strtok` finds the fields.
* `record_roundTrip`: each field is read back.
-/

namespace Mwdd32.Util

/-! ## Records -/

namespace Format

/-- The number of arguments -/
def count (f : Format) : ℕ := if f.width = .star then 2 else 1

/-- How a field is read: `strtol` for `%d`, else `strtoul`, in the base of the letter. -/
def read (f : Format) (text : List Byte) : BitVec 32 × List Byte :=
  if f.letter = .d then strtol text f.letter.base else strtoul text f.letter.base

end Format

/-- The formats of a record, each with the arguments from its own first one on. -/
def withArgs : List Format → (ℕ → BitVec 32) → List (Format × (ℕ → BitVec 32))
  | [], _ => []
  | f :: fs, args => (f, args) :: withArgs fs (shift f.count args)

/-- The format of a record. -/
def recordFormat (sep : Byte) : List Format → List Byte
  | [] => []
  | [f] => f.text
  | f :: fs => f.text ++ sep :: recordFormat sep fs

/-- The characters of a number in any base. -/
def numberChars : List Byte := ch ' ' :: ch '+' :: ch '-' :: (smallDigits ++ largeDigits)

/-! ## The fields -/

theorem zero_not_mem_numberChars : (0 : Byte) ∉ numberChars := by decide

theorem mem_numberChars_of_digit (type : Flags) {d : ℕ} (hd : d < 36) :
    type.digits.getD d 0 ∈ numberChars := by
  have hsmall : ∀ d < 36, smallDigits.getD d 0 ∈ numberChars := by decide
  have hlarge : ∀ d < 36, largeDigits.getD d 0 ∈ numberChars := by decide
  unfold Flags.digits
  split_ifs
  · exact hlarge d hd
  · exact hsmall d hd

theorem mem_numberChars_of_digitsText {type : Flags} {base : ℕ} (h2 : 2 ≤ base) (h36 : base ≤ 36)
    {m : BitVec 32} {c : Byte} (h : c ∈ digitsText type base m) : c ∈ numberChars := by
  rw [digitsText, List.mem_reverse] at h
  split_ifs at h
  · rw [List.mem_singleton.mp h]
    decide
  · rw [divLoop_eq _ h2, List.mem_map] at h
    obtain ⟨d, hd, rfl⟩ := h
    exact mem_numberChars_of_digit type ((Nat.digits_lt_base h2 hd).trans_le h36)

theorem mem_numberChars_of_signText {type : Flags} {num : BitVec 32} {c : Byte}
    (h : c ∈ signText type num) : c ∈ numberChars := by
  unfold signText at h
  split_ifs at h
  all_goals first
    | exact absurd h List.not_mem_nil
    | (rw [List.mem_singleton.mp h]; decide)

theorem mem_numberChars_of_specialText {type : Flags} {base : ℕ} {c : Byte}
    (h : c ∈ specialText type base) : c ∈ numberChars := by
  unfold specialText at h
  split_ifs at h
  · rw [List.mem_singleton.mp h]
    decide
  · rcases List.mem_pair.mp h with rfl | rfl
    · decide
    · exact mem_numberChars_of_digit type (by decide)
  · exact absurd h List.not_mem_nil
  · exact absurd h List.not_mem_nil

theorem mem_numberChars_of_innerPad {type : Flags} {room : BitVec 32} {c : Byte}
    (h : c ∈ innerPad type room) : c ∈ numberChars := by
  unfold innerPad at h
  split_ifs at h
  · exact absurd h List.not_mem_nil
  · rw [List.eq_of_mem_replicate h]
    decide
  · rw [List.eq_of_mem_replicate h]
    decide
  · exact absurd h List.not_mem_nil

theorem digitsText_ne_nil (type : Flags) {base : ℕ} (h2 : 2 ≤ base) (m : BitVec 32) :
    digitsText type base m ≠ [] := by
  intro h
  have hlength := congrArg List.length h
  rw [length_digitsText_eq _ h2, List.length_nil] at hlength
  omega

/-- `number` writes something, and only characters of a number. -/
theorem number_chars {num : BitVec 32} {base : ℕ} (h2 : 2 ≤ base) (h36 : base ≤ 36)
    {size : BitVec 32} {type : Flags} {text : List Byte}
    (h : number num base size (-1) type = some text) :
    text ≠ [] ∧ ∀ c ∈ text, c ∈ numberChars := by
  have hblank : ch ' ' ∈ numberChars := by decide
  obtain ⟨lead, trail, hlayout⟩ := number_eq_layout num h2 h36 size type
  rw [hlayout] at h
  obtain rfl := Option.some.inj h
  refine ⟨?_, fun c hc => ?_⟩
  · simp [digitsText_ne_nil type h2]
  · simp only [List.mem_append, List.mem_replicate] at hc
    obtain ((((⟨-, rfl⟩ | hc) | hc) | hc) | hc) | ⟨-, rfl⟩ := hc
    · exact hblank
    · exact mem_numberChars_of_signText hc
    · exact mem_numberChars_of_specialText hc
    · exact mem_numberChars_of_innerPad hc
    · exact mem_numberChars_of_digitsText h2 h36 hc
    · exact hblank

namespace Format

variable {mem : BitVec 32 → Option Byte} {args : ℕ → BitVec 32} {f : Format}

theorem text_eq (f : Format) : f.text = ch '%' :: (f.fields.text ++ [f.letter.char]) := by
  simp [text, fields, Fields.text, Precision.text]

/-- The arguments that `vsprintf` takes for a format. -/
theorem formatArgs_text (f : Format) : formatArgs f.text = some f.count := by
  have hspec : bareSpec (f.fields.text ++ [f.letter.char]) = f.spec fun _ => 0 := by
    rw [bareSpec, f.fields.readSpec_text (isLetter_char f.letter), spec_fields]
  have hletter : ¬ f.letter.char = 0 := by
    cases f.letter <;> decide
  have htakes : takesArg f.letter.char = true := by
    cases f.letter <;> decide
  have hnext : (f.spec fun _ => 0).next = [] := by
    rw [Spec.next, if_pos (show peek (f.spec fun _ => 0).fmt ≠ 0 from hletter)]
    rfl
  have hused : (f.spec fun _ => 0).used = f.count := by
    rw [Spec.used, if_pos (show takesArg (peek (f.spec fun _ => 0).fmt) = true from htakes),
      spec, count]
    split_ifs <;> rfl
  rw [text_eq, formatArgs, if_neg (by decide), if_neg (by decide), hspec,
    if_neg (show ¬ peek (f.spec fun _ => 0).fmt = 0 from hletter), hnext, formatArgs,
      Option.map_some, hused,
    add_zero]

/-- What a format prints. -/
theorem exists_printed (mem : BitVec 32 → Option Byte) (args : ℕ → BitVec 32) (f : Format) :
    ∃ text, vsprintf mem f.text args = some { text } ∧ text ≠ [] ∧ ∀ c ∈ text, c ∈ numberChars := by
  have hbase := two_le_base f.letter
  obtain ⟨lead, trail, hlayout⟩ :=
    number_eq_layout (f.operand args) hbase.1 (by omega) (f.fieldWidth args) (f.type args)
  refine ⟨_, by rw [vsprintf_format, hlayout, Option.map_some], ?_⟩
  exact number_chars hbase.1 (by omega) hlayout

end Format

/-! ## The text of a record -/

/-- A field and what it prints -/
def Prints (mem : BitVec 32 → Option Byte) (field : Format × (ℕ → BitVec 32))
    (text : List Byte) : Prop :=
  vsprintf mem field.1.text field.2 = some { text }

/-- Texts that can stand between separators -/
def FieldTexts (texts : List (List Byte)) : Prop :=
  ∀ text ∈ texts, text ≠ [] ∧ ∀ c ∈ text, c ∈ numberChars

/-- **The text of a record** is that of its fields, with the separators. -/
theorem vsprintf_record {sep : Byte} (hnull : sep ≠ 0) (hpercent : sep ≠ ch '%')
    (mem : BitVec 32 → Option Byte) (fs : List Format) (args : ℕ → BitVec 32) :
    ∃ texts, List.Forall₂ (Prints mem) (withArgs fs args) texts ∧ FieldTexts texts ∧
      vsprintf mem (recordFormat sep fs) args = some { text := [sep].intercalate texts } := by
  induction fs generalizing args with
  | nil =>
    refine ⟨[], .nil, fun _ h => absurd h List.not_mem_nil, ?_⟩
    rw [recordFormat, vsprintf, vsprintfLoop, List.intercalate_nil]
  | cons f fs ih =>
    obtain ⟨text, hprint, hne, hchars⟩ := f.exists_printed mem args
    obtain ⟨texts, hprints, hfields, htexts⟩ := ih (shift f.count args)
    refine ⟨text :: texts, .cons hprint hprints,
      List.forall_mem_cons.mpr ⟨⟨hne, hchars⟩, hfields⟩, ?_⟩
    cases fs with
    | nil =>
      cases hprints
      rw [recordFormat, hprint, List.intercalate_singleton]
    | cons g gs =>
      -- The first format, the separator and the other formats, on the arguments behind its own.
      obtain ⟨text', texts', -, -, rfl⟩ := List.forall₂_cons_left_iff.mp hprints
      have hloop : vsprintfLoop mem args f.text 0 {} = some { text } := hprint
      have hrest := (vsprintfLoop_eq (Output.unread_append.mpr
        ⟨Output.unread_empty (text ++ [sep]), Output.unread_empty _⟩)).mpr ⟨_, htexts, rfl⟩
      rw [recordFormat, vsprintf, vsprintfLoop_append f.formatArgs_text, hloop, Option.bind_some,
        zero_add, vsprintfLoop, if_neg hnull, if_pos hpercent, List.intercalate_cons_cons]
      refine hrest.trans ?_
      simp [Output.append]
      simp

/-! ## Reading a record -/

/-- `strtok` finds the fields. -/
theorem fields_intercalate {set : List Byte} {sep : Byte} (hsep : sep ∈ set)
    {texts : List (List Byte)} (htexts : ∀ text ∈ texts, text ≠ [] ∧ ∀ c ∈ text, c ∉ set) :
    fields set ([sep].intercalate texts) = texts := by
  induction texts with
  | nil => rfl
  | cons text texts ih =>
    obtain ⟨hne, hchars⟩ := htexts text (by simp)
    cases texts with
    | nil => rw [List.intercalate_singleton, fields_token hne hchars]
    | cons text' texts =>
      rw [List.intercalate_cons_cons, List.append_assoc, List.singleton_append,
        fields_inner hne hchars hsep, ih fun text h => htexts text (by simp [h])]

theorem mem_intercalate {sep c : Byte} {texts : List (List Byte)}
    (h : c ∈ [sep].intercalate texts) :
    c = sep ∨ ∃ text ∈ texts, c ∈ text := by
  induction texts with
  | nil => simp at h
  | cons text texts ih =>
    cases texts with
    | nil => exact .inr ⟨text, by simp, by simpa using h⟩
    | cons text' texts =>
      rw [List.intercalate_cons_cons, List.mem_append, List.mem_append, List.mem_singleton] at h
      obtain (h | h) | h := h
      · exact .inr ⟨text, by simp, h⟩
      · exact .inl h
      · obtain h | ⟨t, ht, hc⟩ := ih h
        · exact .inl h
        · exact .inr ⟨t, List.mem_cons_of_mem _ ht, hc⟩

/-- What a good format alone prints is read back. -/
theorem Format.read_printed {mem : BitVec 32 → Option Byte} {args : ℕ → BitVec 32} {f : Format}
    (hgood : ¬ f.PadsInside (f.operand args)) {text : List Byte}
    (hprint : Prints mem (f, args) text) (hchars : ∀ c ∈ text, c ∈ numberChars) :
    ParsedBack f.letter.base text (f.operand args) (f.read text) := by
  obtain ⟨out, hout, hparse⟩ : f.RoundTrips mem args := f.roundTrips_of_not_padsInside hgood
  obtain rfl : { text } = out := Option.some.inj (hprint.symm.trans hout)
  have hnull : ∀ c ∈ text, c ≠ 0 := fun c hc h => zero_not_mem_numberChars (h ▸ hchars c hc)
  rw [cstr_buf hnull] at hparse
  unfold read
  generalize f.operand args = n at hparse ⊢
  cases hletter : f.letter <;> rw [hletter] at hparse
  · rw [if_pos rfl]
    exact hparse.1
  · rw [if_neg (by decide)]
    exact hparse
  · rw [if_neg (by decide)]
    exact hparse.1
  · rw [if_neg (by decide)]
    exact hparse.1
  · rw [if_neg (by decide)]
    exact hparse.1

/-- A pointer to a field, and the field read through it. -/
def FieldRead (mem : List Byte) (result : Option ℕ) (field : Format × (ℕ → BitVec 32)) : Prop :=
  ∃ p token, result = some p ∧ StringAt mem p token ∧
    ParsedBack field.1.letter.base token (field.1.operand field.2) (field.1.read token)

theorem length_withArgs (fs : List Format) (args : ℕ → BitVec 32) :
    (withArgs fs args).length = fs.length := by
  induction fs generalizing args with
  | nil => rfl
  | cons f fs ih => rw [withArgs, List.length_cons, ih, List.length_cons]

theorem takeD_length_succ (l : List (Option (List Byte))) :
    l.takeD (l.length + 1) none = l ++ [none] := by
  induction l with
  | nil => rfl
  | cons x l ih => rw [List.length_cons, List.takeD_succ, List.tail_cons, ih, List.head?_cons]; rfl

/-- Pointers to what the fields print. -/
theorem fieldRead_of_prints {mem : BitVec 32 → Option Byte} {m : List Byte}
    {results : List (Option ℕ)} {record : List (Format × (ℕ → BitVec 32))}
    {texts : List (List Byte)}
    (hprints : List.Forall₂ (Prints mem) record texts) (htexts : FieldTexts texts)
    (hgood : ∀ field ∈ record, ¬ field.1.PadsInside (field.1.operand field.2))
    (hpoints : List.Forall₂ (Points m) results (texts.map some)) :
    List.Forall₂ (FieldRead m) results record := by
  induction hprints generalizing results with
  | nil =>
    cases hpoints
    exact .nil
  | @cons field text record texts hprint hprints ih =>
    obtain ⟨htext, htexts⟩ := List.forall_mem_cons.mp htexts
    obtain ⟨hfield, hgood⟩ := List.forall_mem_cons.mp hgood
    cases hpoints with
    | @cons result _ results _ hpoint hpoints =>
      refine .cons ?_ (ih htexts hgood hpoints)
      cases result with
      | none => exact hpoint.elim
      | some p => exact ⟨p, text, rfl, hpoint.2, Format.read_printed hfield hprint htext.2⟩

/-- **The round trip of a record.** A record of any formats that do not pad inside, printed with a
    separator that is no character of a number, is read back: the calls of `strtok` with delimiters
    among which the separator is return a pointer to each field in order, at which the conversion
    gives the argument and ends after the last digit, and then a null pointer. -/
theorem record_roundTrip {sep : Byte} {set : CStr} (hsep : sep ∈ set.bytes)
    (hpercent : sep ≠ ch '%') (hset : ∀ c ∈ set.bytes, c ∉ numberChars)
    (mem : BitVec 32 → Option Byte) (fs : List Format)
    (args : ℕ → BitVec 32)
    (hgood : ∀ field ∈ withArgs fs args, ¬ field.1.PadsInside (field.1.operand field.2)) :
    ∃ text : CStr, vsprintf mem (recordFormat sep fs) args = some { text := text.bytes } ∧
      ∀ (m : List Byte) (p : ℕ) (next : Option ℕ), StringAt m p text.bytes →
        ∃ results s', strtokCalls (some p) (List.replicate (fs.length + 1) set.buf) ⟨m, next⟩ =
            some (results ++ [none], s') ∧
          List.Forall₂ (FieldRead s'.mem) results (withArgs fs args) := by
  have hnull := set.noNull sep hsep
  obtain ⟨texts, hprints, hchars, hrecord⟩ := vsprintf_record hnull hpercent mem fs args
  have htext : ∀ c ∈ [sep].intercalate texts, c ≠ 0 := by
    intro c hc
    obtain rfl | ⟨text, htext, hc⟩ := mem_intercalate hc
    · exact hnull
    · exact fun h => zero_not_mem_numberChars (h ▸ (hchars text htext).2 c hc)
  refine ⟨⟨_, htext⟩, hrecord, fun m p next hat => ?_⟩
  obtain ⟨before, after, rfl, rfl⟩ := exists_before hat
  obtain ⟨results, s', hrun, hall⟩ :=
    @strtokCalls_text (List.replicate (fs.length + 1) set) (some before.length) next before
      ([sep].intercalate texts) after rfl htext
  have hlength : fs.length = (texts.map some).length := by
    rw [List.length_map, ← hprints.length_eq, length_withArgs]
  have hfields : fields set.bytes ([sep].intercalate texts) = texts :=
    fields_intercalate hsep fun text htext =>
      ⟨(hchars text htext).1, fun c hc hmem => hset c hmem ((hchars text htext).2 c hc)⟩
  have hpoints := hall.points
  rw [List.map_replicate] at hrun hpoints
  rw [tokens_replicate, hfields, hlength, takeD_length_succ] at hpoints
  have hlast := List.forall₂_drop_append _ _ _ hpoints
  have hnone : results.drop (texts.map some).length = [none] := by
    generalize results.drop (texts.map some).length = last at hlast ⊢
    cases hlast with
    | @cons result _ rest _ hpoint hrest =>
      cases hrest
      cases result with
      | none => rfl
      | some p => exact hpoint.elim
  refine ⟨results.take (texts.map some).length, s', ?_, ?_⟩
  · rw [← hnone, List.take_append_drop]
    exact hrun
  · exact fieldRead_of_prints hprints hchars hgood (List.forall₂_take_append _ _ _ hpoints)

/-- `"%+d,%#*x,%5u"` -/
def sampleRecord : List Format :=
  [⟨[.plus], .absent, .d⟩, ⟨[.special], .star, .x⟩, ⟨[], .literal 5 (by decide), .u⟩]

theorem record_roundTrip_sample :
    ∃ text : CStr, vsprintf (fun _ => none) (recordFormat (ch ',') sampleRecord) (BitVec.ofNat 32) =
        some { text := text.bytes } ∧
      ∃ results s', strtokCalls (some 0) (List.replicate 4 sampleComma.buf) ⟨text.buf, none⟩ =
          some (results ++ [none], s') ∧
        List.Forall₂ (FieldRead s'.mem) results (withArgs sampleRecord (BitVec.ofNat 32)) := by
  have hgood : ∀ field ∈ withArgs sampleRecord (BitVec.ofNat 32),
      ¬ field.1.PadsInside (field.1.operand field.2) := by
    intro field hfield
    simp only [sampleRecord, withArgs, List.mem_cons, List.not_mem_nil, or_false] at hfield
    have hmin : LONG_MIN.toNat = 2147483648 := rfl
    rintro ⟨⟨⟨w, pos, hwidth, hw⟩, -, -⟩, -⟩
    obtain rfl | rfl | rfl := hfield
    · cases hwidth
    · cases hwidth
    · cases hwidth
      omega
  obtain ⟨text, hprint, hread⟩ :=
    @record_roundTrip (ch ',') sampleComma (by decide) (by decide) (by decide)
    (fun _ => none) sampleRecord (BitVec.ofNat 32) hgood
  exact ⟨text, hprint, hread text.buf 0 none (List.prefix_refl _)⟩

end Mwdd32.Util
