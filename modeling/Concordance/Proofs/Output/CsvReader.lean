/-
Reading CSV. A table is written line by line, each record with commas between its fields. A field stands as it is if
it holds no comma, no quote and no line break, and may always stand between quotes, its own quotes doubled. A line
ends with a line feed, with or without a carriage return in front; the last one may go without. A reader goes over
the text character by character, and reads exactly the texts that write a table so, each as the table that it writes.
-/
import Concordance.Output.Export
import Concordance.Proofs.Text.Pieces

namespace Concordance.Csv

open Text

/-! ## Writing -/

/-- A text with its quotes doubled. -/
def doubled (s : List Char) : List Char := s.flatMap fun c => if c = '"' then ['"', '"'] else [c]

/-- Does a text write a field? -/
inductive WritesField : List Char → List Char → Prop where
  | bare {field : List Char} (h : ∀ c ∈ field, Output.needsQuotes c = false) : WritesField field field
  | quoted (field : List Char) : WritesField ('"' :: (doubled field ++ ['"'])) field

/-- Does a text write a record, which has one field or more? -/
def WritesRecord (text : List Char) (record : List (List Char)) : Prop :=
  ∃ fields, fields ≠ [] ∧ text = joinWith [','] fields ∧ List.Forall₂ WritesField fields record

/-- Does a text write a record and end the line? -/
def WritesLine (text : List Char) (record : List (List Char)) : Prop :=
  ∃ line, WritesRecord line record ∧ (text = line ++ ['\n'] ∨ text = line ++ ['\r', '\n'])

/-- Does a text write a table, in lines that all end or of which the last one does not end but is not empty? -/
def WritesTable (text : List Char) (table : List (List (List Char))) : Prop :=
  ∃ lines ended, List.Forall₂ WritesLine lines ended ∧
    (text = lines.flatten ∧ table = ended ∨
      ∃ last record, last ≠ [] ∧ WritesRecord last record ∧ text = lines.flatten ++ last ∧ table = ended ++ [record])

/-! ## Reading -/

/-- Where a reader is. -/
inductive Mode where
  /-- In front of a field. -/
  | start
  /-- In a field without quotes. -/
  | bare
  /-- Between the quotes of a field. -/
  | quoted
  /-- Behind a quote that closes the field, if another quote does not follow. -/
  | closed
  /-- Behind a carriage return, which a line feed has to follow. -/
  | returned
deriving DecidableEq, Repr

/-- What has been read: the records before, the fields before in this record, and the characters of this field. -/
structure Reader where
  table : List (List (List Char))
  record : List (List Char)
  field : List Char
  mode : Mode
deriving DecidableEq, Repr

namespace Reader

def push (r : Reader) (c : Char) (mode : Mode) : Reader := ⟨r.table, r.record, r.field ++ [c], mode⟩

def endField (r : Reader) : Reader := ⟨r.table, r.record ++ [r.field], [], .start⟩

def endRecord (r : Reader) : Reader := ⟨r.table ++ [r.record ++ [r.field]], [], [], .start⟩

/-- Reads a character behind a field, if the field may end in front of it. -/
def leave? (r : Reader) (c : Char) : Option Reader :=
  if c = ',' then some r.endField
  else if c = '\n' then some r.endRecord
  else if c = '\r' then some ⟨r.table, r.record, r.field, .returned⟩
  else none

/-- Reads a character. -/
def step? (r : Reader) (c : Char) : Option Reader :=
  match r.mode with
  | .start =>
    if c = '"' then some ⟨r.table, r.record, r.field, .quoted⟩ else (r.leave? c).or (some (r.push c .bare))
  | .bare => if c = '"' then none else (r.leave? c).or (some (r.push c .bare))
  | .quoted => if c = '"' then some ⟨r.table, r.record, r.field, .closed⟩ else some (r.push c .quoted)
  | .closed => if c = '"' then some (r.push c .quoted) else r.leave? c
  | .returned => if c = '\n' then some r.endRecord else none

/-- The table, at the end of a text. -/
def finish? (r : Reader) : Option (List (List (List Char))) :=
  match r.mode with
  | .start => some (if r.record.isEmpty then r.table else r.endRecord.table)
  | .bare | .closed => some r.endRecord.table
  | .quoted | .returned => none

end Reader

/-- The table that a text writes. -/
def read? (text : List Char) : Option (List (List (List Char))) :=
  (text.foldlM Reader.step? ⟨[], [], [], .start⟩).bind Reader.finish?

/-! ## What has been read -/

/-- Does a text write so much of a field as has been read? -/
inductive WritesPart : Mode → List Char → List Char → Prop where
  | start : WritesPart .start [] []
  | bare {field : List Char} (hne : field ≠ []) (h : ∀ c ∈ field, Output.needsQuotes c = false) :
      WritesPart .bare field field
  | quoted (field : List Char) : WritesPart .quoted ('"' :: doubled field) field
  | closed (field : List Char) : WritesPart .closed ('"' :: (doubled field ++ ['"'])) field
  | returned {text field : List Char} (h : WritesField text field) : WritesPart .returned (text ++ ['\r']) field

/-- Does a text write what a reader has read? -/
def Reader.HasRead (r : Reader) (text : List Char) : Prop :=
  ∃ lines fields part, text = lines.flatten ++ (fields.flatMap (· ++ [',']) ++ part) ∧
    List.Forall₂ WritesLine lines r.table ∧ List.Forall₂ WritesField fields r.record ∧
      WritesPart r.mode part r.field

theorem hasRead_start : Reader.HasRead ⟨[], [], [], .start⟩ [] := ⟨[], [], [], rfl, .nil, .nil, .start⟩

theorem doubled_append (s t : List Char) : doubled (s ++ t) = doubled s ++ doubled t := List.flatMap_append

theorem doubled_concat_quote (s : List Char) : doubled (s ++ ['"']) = doubled s ++ ['"', '"'] := doubled_append s ['"']

theorem doubled_concat {c : Char} (hc : c ≠ '"') (s : List Char) : doubled (s ++ [c]) = doubled s ++ [c] := by
  rw [doubled_append]
  simp [doubled, hc]

section

variable {r r' : Reader} {lines fields : List (List Char)} {part text : List Char} {c : Char}

/-- The fields that have been read make up a record. -/
theorem writesRecord_concat {record : List (List Char)} {field : List Char}
    (hfields : List.Forall₂ WritesField fields record) (hpart : WritesField part field) :
    WritesRecord (fields.flatMap (· ++ [',']) ++ part) (record ++ [field]) := by
  refine ⟨fields ++ [part], by simp, ?_, List.rel_append hfields (.cons hpart .nil)⟩
  rw [joinWith_append_right [','] (List.cons_ne_nil part []), joinWith_singleton]

/-- A line that has been read is added to the lines before. -/
theorem hasRead_endRecord (hlines : List.Forall₂ WritesLine lines r.table)
    (hline : WritesLine text (r.record ++ [r.field])) : r.endRecord.HasRead (lines.flatten ++ text) :=
  ⟨lines ++ [text], [], [], by simp, List.rel_append hlines (.cons hline .nil), .nil, .start⟩

section

variable (hlines : List.Forall₂ WritesLine lines r.table) (hfields : List.Forall₂ WritesField fields r.record)
include hlines hfields

/-- One more character of the field has been read. -/
theorem hasRead_part {field : List Char} {mode : Mode} (more : WritesPart mode (part ++ [c]) field) :
    Reader.HasRead ⟨r.table, r.record, field, mode⟩
      (lines.flatten ++ (fields.flatMap (· ++ [',']) ++ part) ++ [c]) :=
  ⟨lines, fields, part ++ [c], by simp, hlines, hfields, more⟩

/-- What stands behind a field has been read. -/
theorem hasRead_leave? (hpart : WritesField part r.field) (h : r.leave? c = some r') :
    r'.HasRead (lines.flatten ++ (fields.flatMap (· ++ [',']) ++ part) ++ [c]) := by
  unfold Reader.leave? at h
  split_ifs at h with comma lineFeed carriageReturn <;> cases h
  · refine ⟨lines, fields ++ [part], [], ?_, hlines, List.rel_append hfields (.cons hpart .nil), .start⟩
    simp [comma]
  · rw [List.append_assoc, lineFeed]
    exact hasRead_endRecord hlines ⟨_, writesRecord_concat hfields hpart, .inl rfl⟩
  · exact hasRead_part hlines hfields (carriageReturn ▸ .returned hpart)

/-- A character of a field without quotes has been read, or what stands behind the field. -/
theorem hasRead_bare (letters : ∀ x ∈ r.field, Output.needsQuotes x = false) (quote : c ≠ '"')
    (h : (r.leave? c).or (some (r.push c .bare)) = some r') :
    r'.HasRead (lines.flatten ++ (fields.flatMap (· ++ [',']) ++ r.field) ++ [c]) := by
  cases left : r.leave? c with
  | some behind =>
    rw [left] at h
    cases h
    exact hasRead_leave? hlines hfields (.bare letters) left
  | none =>
    rw [left] at h
    cases h
    have letter : Output.needsQuotes c = false := by
      unfold Reader.leave? at left
      split_ifs at left with comma lineFeed carriageReturn
      simp [Output.needsQuotes, quote, comma, lineFeed, carriageReturn]
    refine hasRead_part hlines hfields (.bare (by simp) fun x hx => ?_)
    rcases List.mem_append.1 hx with hx | hx
    · exact letters x hx
    · rw [List.mem_singleton.1 hx, letter]

end

/-- A reader that reads a character has read the text and the character. -/
theorem Reader.HasRead.step (h : r.HasRead text) (hs : r.step? c = some r') : r'.HasRead (text ++ [c]) := by
  obtain ⟨lines, fields, part, rfl, hlines, hfields, hpart⟩ := h
  obtain ⟨table, record, field, mode⟩ := r
  cases hpart with
  | start =>
    simp only [Reader.step?] at hs
    split at hs
    · rename_i quote
      cases hs
      exact hasRead_part hlines hfields (quote ▸ .quoted [])
    · rename_i quote
      exact hasRead_bare hlines hfields (r := ⟨table, record, [], .start⟩) nofun quote hs
  | bare _ letters =>
    simp only [Reader.step?] at hs
    split at hs
    · cases hs
    · rename_i quote
      exact hasRead_bare hlines hfields letters quote hs
  | quoted =>
    simp only [Reader.step?] at hs
    split at hs <;> cases hs <;> rename_i quote
    · exact hasRead_part hlines hfields (quote ▸ .closed field)
    · have more := WritesPart.quoted (field ++ [c])
      rw [doubled_concat quote] at more
      exact hasRead_part hlines hfields more
  | closed =>
    simp only [Reader.step?] at hs
    split at hs
    · rename_i quote
      cases hs
      have more := WritesPart.quoted (field ++ ['"'])
      rw [doubled_concat_quote] at more
      refine hasRead_part hlines hfields ?_
      simpa [quote] using more
    · exact hasRead_leave? hlines hfields (.quoted field) hs
  | @returned text _ written =>
    simp only [Reader.step?] at hs
    split at hs
    · rename_i lineFeed
      cases hs
      have line : WritesLine (fields.flatMap (· ++ [',']) ++ text ++ ['\r', '\n']) (record ++ [field]) :=
        ⟨_, writesRecord_concat hfields written, .inr rfl⟩
      have ended := hasRead_endRecord (r := ⟨table, record, field, .returned⟩) hlines line
      simpa [lineFeed] using ended
    · cases hs

/-- A reader that goes over a text has read it behind the text before. -/
theorem Reader.HasRead.run {s : List Char} (h : r.HasRead text) (hs : s.foldlM step? r = some r') :
    r'.HasRead (text ++ s) := by
  induction s generalizing r text with
  | nil =>
    cases hs
    rwa [List.append_nil]
  | cons c s ih =>
    rw [List.foldlM_cons, Option.bind_eq_bind, Option.bind_eq_some_iff] at hs
    obtain ⟨next, hstep, hs⟩ := hs
    have read := ih (h.step hstep) hs
    rwa [List.append_assoc] at read

/-- At its end the text writes the table. -/
theorem Reader.HasRead.writesTable {table : List (List (List Char))} (h : r.HasRead text)
    (hf : r.finish? = some table) : WritesTable text table := by
  obtain ⟨lines, fields, part, rfl, hlines, hfields, hpart⟩ := h
  obtain ⟨ended, record, field, mode⟩ := r
  -- a last record without the end of its line
  have last (written : WritesField part field) (filled : fields.flatMap (· ++ [',']) ++ part ≠ []) :
      WritesTable (lines.flatten ++ (fields.flatMap (· ++ [',']) ++ part)) (ended ++ [record ++ [field]]) :=
    ⟨lines, ended, hlines, .inr ⟨_, _, filled, writesRecord_concat hfields written, rfl, rfl⟩⟩
  cases hpart with
  | start =>
    cases hfields with
    | nil =>
      cases hf
      exact ⟨lines, ended, hlines, .inl ⟨by simp, rfl⟩⟩
    | cons =>
      cases hf
      exact last (.bare nofun) (by simp)
  | bare hne letters =>
    cases hf
    exact last (.bare letters) (by simp [hne])
  | closed =>
    cases hf
    exact last (.quoted field) (by simp)
  | quoted => cases hf
  | returned => cases hf

end

/-! ## What is read -/

section

variable {table : List (List (List Char))} {record : List (List Char)} {field text : List Char}

/-- May a field end where the reader is? -/
def Mode.IsEnd (mode : Mode) : Prop := mode = .start ∨ mode = .bare ∨ mode = .closed

/-- A character that may stand behind a field is read so, whatever the field. -/
theorem step?_of_leave? {r next : Reader} (hr : r.mode.IsEnd) {c : Char} (hc : c ≠ '"') (h : r.leave? c = some next) :
    r.step? c = some next := by
  rcases hr with mode | mode | mode <;> simp only [Reader.step?, mode, if_neg hc, h, Option.some_or]

theorem run_append {r next : Reader} {s : List Char} (h : s.foldlM Reader.step? r = some next) (t : List Char) :
    (s ++ t).foldlM Reader.step? r = t.foldlM Reader.step? next := by
  rw [List.foldlM_append, h, Option.bind_eq_bind, Option.bind_some]

theorem run_cons {r next : Reader} {c : Char} (h : r.step? c = some next) (t : List Char) :
    (c :: t).foldlM Reader.step? r = t.foldlM Reader.step? next := by
  rw [List.foldlM_cons, h, Option.bind_eq_bind, Option.bind_some]

theorem run_doubled (field s : List Char) :
    (doubled s).foldlM Reader.step? ⟨table, record, field, .quoted⟩ = some ⟨table, record, field ++ s, .quoted⟩ := by
  induction s generalizing field with
  | nil =>
    rw [List.append_nil]
    rfl
  | cons c s ih =>
    have tail := ih (field ++ [c])
    rw [List.append_assoc, List.singleton_append] at tail
    rw [← tail]
    by_cases hc : c = '"'
    · subst hc
      rfl
    · have plain : doubled (c :: s) = c :: doubled s := by simp [doubled, hc]
      rw [plain, List.foldlM_cons, Reader.step?]
      simp only [if_neg hc]
      rfl

/-- A character that needs no quotes is read as part of a field without quotes. -/
theorem step?_letter {c : Char} (hc : Output.needsQuotes c = false) {mode : Mode}
    (hmode : mode = .start ∨ mode = .bare) :
    Reader.step? ⟨table, record, field, mode⟩ c = some ⟨table, record, field ++ [c], .bare⟩ := by
  simp only [Output.needsQuotes, Bool.or_eq_false_iff, decide_eq_false_iff_not] at hc
  obtain ⟨⟨⟨comma, quote⟩, lineFeed⟩, carriageReturn⟩ := hc
  rcases hmode with rfl | rfl <;>
    simp [Reader.step?, Reader.leave?, Reader.push, comma, quote, lineFeed, carriageReturn]

theorem run_bare (field : List Char) {s : List Char} (hs : ∀ c ∈ s, Output.needsQuotes c = false) :
    s.foldlM Reader.step? ⟨table, record, field, .bare⟩ = some ⟨table, record, field ++ s, .bare⟩ := by
  induction s generalizing field with
  | nil =>
    rw [List.append_nil]
    rfl
  | cons c s ih =>
    have tail := ih (field ++ [c]) fun x hx => hs x (List.mem_cons_of_mem c hx)
    rw [List.append_assoc, List.singleton_append] at tail
    rw [run_cons (step?_letter (hs c List.mem_cons_self) (.inr rfl)), tail]

/-- A field that is written is read, up to where it may end. -/
theorem run_field (table : List (List (List Char))) (record : List (List Char)) (h : WritesField text field) :
    ∃ mode : Mode, mode.IsEnd ∧ (mode = .start → text = []) ∧
      text.foldlM Reader.step? ⟨table, record, [], .start⟩ = some ⟨table, record, field, mode⟩ := by
  cases h with
  | bare letters =>
    cases field with
    | nil => exact ⟨.start, .inl rfl, fun _ => rfl, rfl⟩
    | cons c s =>
      refine ⟨.bare, .inr (.inl rfl), nofun, ?_⟩
      rw [run_cons (step?_letter (letters c List.mem_cons_self) (.inl rfl))]
      exact run_bare [c] fun x hx => letters x (List.mem_cons_of_mem c hx)
  | quoted =>
    refine ⟨.closed, .inr (.inr rfl), nofun, ?_⟩
    rw [List.foldlM_cons]
    show (doubled field ++ ['"']).foldlM Reader.step? ⟨table, record, [], .quoted⟩ = _
    rw [run_append (run_doubled _ _)]
    rfl

/-- The fields that are written are read, the last one up to where it may end. -/
theorem run_fields (table : List (List (List Char))) (record : List (List Char)) {fields record' : List (List Char)}
    (h : List.Forall₂ WritesField fields record') (hne : fields ≠ []) :
    ∃ init last, record' = init ++ [last] ∧ ∃ mode : Mode, mode.IsEnd ∧
      (init = [] → mode = .start → joinWith [','] fields = []) ∧
      (joinWith [','] fields).foldlM Reader.step? ⟨table, record, [], .start⟩ =
        some ⟨table, record ++ init, last, mode⟩ := by
  induction h generalizing record with
  | nil => exact absurd rfl hne
  | @cons part field parts rest hpart hparts ih =>
    obtain ⟨mode, isEnd, empty, read⟩ := run_field table record hpart
    by_cases alone : parts = []
    · subst alone
      cases hparts
      refine ⟨[], field, rfl, mode, isEnd, fun _ => empty, ?_⟩
      rw [joinWith_singleton, List.append_nil, read]
    · obtain ⟨init, last, split, mode', isEnd', -, read'⟩ := ih (record ++ [field]) alone
      refine ⟨field :: init, last, by rw [split, List.cons_append], mode', isEnd', nofun, ?_⟩
      have comma : Reader.step? ⟨table, record, field, mode⟩ ',' = some ⟨table, record ++ [field], [], .start⟩ :=
        step?_of_leave? isEnd (by decide) rfl
      rw [joinWith_cons [','] part alone, List.append_assoc, run_append read, List.singleton_append, run_cons comma,
        read', List.append_assoc, List.singleton_append]

/-- A line that is written is read as its record. -/
theorem run_line (h : WritesLine text record) :
    text.foldlM Reader.step? ⟨table, [], [], .start⟩ = some ⟨table ++ [record], [], [], .start⟩ := by
  obtain ⟨line, ⟨fields, hne, rfl, hfields⟩, ended⟩ := h
  obtain ⟨init, last, rfl, mode, isEnd, -, read⟩ := run_fields table [] hfields hne
  rcases ended with rfl | rfl
  · have lineFeed : Reader.step? ⟨table, init, last, mode⟩ '\n' = some ⟨table ++ [init ++ [last]], [], [], .start⟩ :=
      step?_of_leave? isEnd (by decide) rfl
    rw [run_append read, List.nil_append, run_cons lineFeed]
    rfl
  · have carriageReturn : Reader.step? ⟨table, init, last, mode⟩ '\r' = some ⟨table, init, last, .returned⟩ :=
      step?_of_leave? isEnd (by decide) rfl
    rw [run_append read, List.nil_append, run_cons carriageReturn]
    rfl

theorem run_lines (table : List (List (List Char))) {lines : List (List Char)} {ended : List (List (List Char))}
    (h : List.Forall₂ WritesLine lines ended) :
    lines.flatten.foldlM Reader.step? ⟨table, [], [], .start⟩ = some ⟨table ++ ended, [], [], .start⟩ := by
  induction h generalizing table with
  | nil =>
    rw [List.append_nil]
    rfl
  | @cons line record lines ended hline hlines ih =>
    rw [List.flatten_cons, run_append (run_line hline), ih, List.append_assoc, List.singleton_append]

theorem read?_of_writesTable (h : WritesTable text table) : read? text = some table := by
  obtain ⟨lines, ended, hlines, whole⟩ := h
  have before := run_lines [] hlines
  rw [List.nil_append] at before
  rcases whole with ⟨rfl, rfl⟩ | ⟨last, record, filled, ⟨fields, hne, rfl, hfields⟩, rfl, rfl⟩
  · rw [read?, before]
    rfl
  · obtain ⟨init, field, rfl, mode, isEnd, empty, read⟩ := run_fields ended [] hfields hne
    have finished : Reader.finish? ⟨ended, init, field, mode⟩ = some (ended ++ [init ++ [field]]) := by
      rcases isEnd with rfl | rfl | rfl
      · -- the line is not empty, so a comma has been read
        have comma : init ≠ [] := fun none => filled (empty none rfl)
        simp [Reader.finish?, Reader.endRecord, comma]
      · rfl
      · rfl
    rw [read?, run_append before, read, List.nil_append, Option.bind_some, finished]

/-- A text is read as the table that it writes, and if it writes none it is not read. -/
theorem read?_eq_some_iff : read? text = some table ↔ WritesTable text table := by
  refine ⟨fun h => ?_, read?_of_writesTable⟩
  obtain ⟨r, run, finish⟩ := Option.bind_eq_some_iff.1 h
  exact (hasRead_start.run run).writesTable finish

end

end Concordance.Csv
