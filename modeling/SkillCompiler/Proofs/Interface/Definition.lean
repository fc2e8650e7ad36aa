import Mathlib.Data.List.Forall2
import SkillCompiler.Interface.Definition
import SkillCompiler.Proofs.Assoc
import SkillCompiler.Proofs.Text.Words

/-!
# What a definition says

A line of a definition is read by the words before its comment (`readLine_eq`). A blank line, a
comment or a constant says nothing (`Says`), so a text is read to the fields and separators that its
other lines say, whatever white space stands in them (`parse_eq_ok`). The only lines that cannot be
read are those of one word that is no separator, and the first of them is reported
(`readLines_eq_error_iff`).
-/

namespace SkillCompiler

namespace Definition

/-! ## Types -/

/-- The type in the first declaration of a field. -/
def declaredType? (d : Definition) (field : String) : Option String :=
  (d.sections.flatten.find? fun f => f.name = field).map Field.type

theorem get?_fieldTypes (d : Definition) (field : String) :
    d.fieldTypes.get? field = d.declaredType? field := by
  unfold fieldTypes declaredType?
  rw [Assoc.get?_foldl_insertNew Field.name Field.type]
  rfl

theorem names_fieldTypes (d : Definition) :
    d.fieldTypes.names = (d.sections.flatten.map Field.name).eraseDups := by
  -- the names that are there already have come up before
  have hfold : ∀ (fields : List Field) (types : Assoc String) (seen : List String),
      types.names = seen.eraseDups →
        (fields.foldl (fun types f => types.insertNew f.name f.type) types).names =
          (seen ++ fields.map Field.name).eraseDups := by
    intro fields
    induction fields with
    | nil => simp
    | cons f fields ih =>
      intro types seen hseen
      rw [List.foldl_cons, List.map_cons, ← List.singleton_append, ← List.append_assoc]
      apply ih
      rw [Assoc.names_insertNew, hseen, Assoc.eraseDups_concat]
      simp only [List.mem_eraseDups]
  exact hfold _ [] [] rfl

/-! ## Lines -/

variable {line text : List Char} {said : DefinitionLine} {number : Nat}

/-- White space within a line. -/
def isBlank (text : List Char) : Bool := text.all fun c => Text.isSpace c && c ≠ '\n'

/-- Text that neither white space nor a comment breaks. -/
def isSolid (text : List Char) : Bool := text.all fun c => !Text.isSpace c && c ≠ '#'

/-- A line and what it says. -/
inductive Says : List Char → DefinitionLine → Prop
  | blank {line : List Char} (h : isBlank line) : Says line .nothing
  | constant {before type gap name value : List Char} (hbefore : isBlank before)
      (htype : isSolid type) (htype_ne : type ≠ []) (hgap : isBlank gap) (hgap_ne : gap ≠ [])
      (hname : isSolid name) (hvalue : '\n' ∉ value) :
      Says (before ++ (type ++ (gap ++ (name ++ '=' :: value)))) .nothing
  | separator {before after : List Char} (hbefore : isBlank before) (hafter : isBlank after) :
      Says (before ++ (['-', '-', '-'] ++ after)) .separator
  | field {before type gap name after : List Char} (hbefore : isBlank before)
      (htype : isSolid type) (htype_ne : type ≠ []) (hgap : isBlank gap) (hgap_ne : gap ≠ [])
      (hname : isSolid name) (hname_ne : name ≠ []) (hplain : '=' ∉ name) (hafter : isBlank after) :
      Says (before ++ (type ++ (gap ++ (name ++ after))))
        (.field ⟨String.ofList type, String.ofList name⟩)
  | comment {line comment : List Char} {said : DefinitionLine} (h : Says line said)
      (hcomment : '\n' ∉ comment) : Says (line ++ '#' :: comment) said

theorem notMem_of_all {p : Char → Bool} {c : Char} (h : text.all p) (hc : p c = false) :
    c ∉ text := by
  intro hmem
  rw [List.all_eq_true.mp h c hmem] at hc
  contradiction

theorem isSpace_of_isBlank (h : isBlank text) : ∀ c ∈ text, Text.isSpace c := by
  intro c hc
  have hall := List.all_eq_true.mp h c hc
  rw [Bool.and_eq_true] at hall
  exact hall.1

theorem lf_notMem_of_isBlank (h : isBlank text) : '\n' ∉ text := notMem_of_all h rfl

theorem hash_notMem_of_isBlank (h : isBlank text) : '#' ∉ text := notMem_of_all h rfl

theorem isSpace_of_isSolid (h : isSolid text) : ∀ c ∈ text, Text.isSpace c = false := by
  intro c hc
  have hall := List.all_eq_true.mp h c hc
  rw [Bool.and_eq_true, Bool.not_eq_true'] at hall
  exact hall.1

theorem lf_notMem_of_isSolid (h : isSolid text) : '\n' ∉ text := notMem_of_all h rfl

theorem hash_notMem_of_isSolid (h : isSolid text) : '#' ∉ text := notMem_of_all h rfl

theorem words_dashes : Text.words ['-', '-', '-'] = [['-', '-', '-']] := by decide

/-- A line is read by the words before its comment. -/
theorem readLine_eq (number : Nat) (line : List Char) :
    readLine number line =
      match Text.words (line.takeWhile (· ≠ '#')) with
      | [] => .ok .nothing
      | [word] =>
        if word = ['-', '-', '-'] then .ok .separator else .error ⟨number, String.ofList word⟩
      | type :: name :: _ =>
        if name.contains '=' then .ok .nothing
        else .ok (.field ⟨String.ofList type, String.ofList name⟩) := by
  unfold readLine
  simp only [Text.words_trim]
  generalize line.takeWhile (· ≠ '#') = cut
  match hwords : Text.words cut with
  | [] => rw [if_pos (Text.trim_eq_nil_iff.mpr hwords)]
  | [word] =>
    obtain ⟨rfl, hne, -⟩ := Text.words_eq_singleton_iff.mp hwords
    rw [if_neg hne]
  | type :: name :: more =>
    have hne : Text.trim cut ≠ [] := by
      rw [Ne, Text.trim_eq_nil_iff, hwords]
      exact List.cons_ne_nil _ _
    have hdashes : Text.trim cut ≠ ['-', '-', '-'] := by
      intro htrim
      rw [← Text.words_trim, htrim, words_dashes] at hwords
      exact List.cons_ne_nil _ _ (List.cons.inj hwords).2.symm
    rw [if_neg hne, if_neg hdashes]

/-- What is left of a line without its comment and the white space around it. -/
def bare (line : List Char) : List Char := Text.trim (line.takeWhile (· ≠ '#'))

/-- Whether a line is a single word that is no separator. -/
def isLone (line : List Char) : Bool :=
  bare line ≠ [] && (bare line).all (fun c => !Text.isSpace c) && bare line ≠ ['-', '-', '-']

theorem isLone_iff : isLone line ↔
    Text.words (line.takeWhile (· ≠ '#')) = [bare line] ∧ bare line ≠ ['-', '-', '-'] := by
  rw [Text.words_eq_singleton_iff]
  simp [isLone, bare, and_assoc]

theorem readLine_of_isLone (h : isLone line) (number : Nat) :
    readLine number line = .error ⟨number, String.ofList (bare line)⟩ := by
  obtain ⟨hwords, hne⟩ := isLone_iff.mp h
  rw [readLine_eq, hwords]
  exact if_neg hne

theorem exists_readLine (h : isLone line = false) (number : Nat) :
    ∃ said, readLine number line = .ok said := by
  rw [readLine_eq]
  match hwords : Text.words (line.takeWhile (· ≠ '#')) with
  | [] => exact ⟨_, rfl⟩
  | [word] =>
    obtain ⟨rfl, -⟩ := Text.words_eq_singleton_iff.mp hwords
    have hdashes : bare line = ['-', '-', '-'] := by
      by_contra hne
      exact Bool.eq_false_iff.mp h (isLone_iff.mpr ⟨hwords, hne⟩)
    exact ⟨_, if_pos hdashes⟩
  | type :: name :: more =>
    dsimp only
    split <;> exact ⟨_, rfl⟩

/-! ## What a line says -/

theorem Says.lf_notMem (h : Says line said) : '\n' ∉ line := by
  induction h with
  | blank h => exact lf_notMem_of_isBlank h
  | constant hbefore htype _ hgap _ hname hvalue =>
    simp [lf_notMem_of_isBlank, lf_notMem_of_isSolid, *]
  | separator hbefore hafter => simp [lf_notMem_of_isBlank, *]
  | field hbefore htype _ hgap _ hname _ _ hafter =>
    simp [lf_notMem_of_isBlank, lf_notMem_of_isSolid, *]
  | comment _ hcomment ih => simp [ih, hcomment]

/-- The first word of a line is its type. -/
theorem words_takeWhile_type {before type gap : List Char} (hbefore : isBlank before)
    (htype : isSolid type) (htype_ne : type ≠ []) (hgap : isBlank gap) (hgap_ne : gap ≠ [])
    (rest : List Char) :
    Text.words ((before ++ (type ++ (gap ++ rest))).takeWhile (· ≠ '#')) =
      type :: Text.words (rest.takeWhile (· ≠ '#')) := by
  rw [Text.takeWhile_ne_append (hash_notMem_of_isBlank hbefore),
    Text.takeWhile_ne_append (hash_notMem_of_isSolid htype),
    Text.takeWhile_ne_append (hash_notMem_of_isBlank hgap),
    Text.words_append_left (isSpace_of_isBlank hbefore),
    Text.words_append_gap htype_ne (isSpace_of_isSolid htype) hgap_ne (isSpace_of_isBlank hgap)]

/-- The last word of a line is what stands before white space. -/
theorem words_takeWhile_last {word after : List Char} (hne : word ≠ []) (hword : isSolid word)
    (hafter : isBlank after) : Text.words ((word ++ after).takeWhile (· ≠ '#')) = [word] := by
  rw [Text.takeWhile_ne_append (hash_notMem_of_isSolid hword),
    Text.takeWhile_ne_eq_self (hash_notMem_of_isBlank hafter),
    Text.words_append_right (isSpace_of_isBlank hafter),
    Text.words_eq_singleton hne (isSpace_of_isSolid hword)]

theorem Says.readLine (h : Says line said) (number : Nat) :
    readLine number line = .ok said := by
  induction h with
  | blank h =>
    rw [readLine_eq, Text.takeWhile_ne_eq_self (hash_notMem_of_isBlank h),
      Text.words_eq_nil_iff.mpr (isSpace_of_isBlank h)]
  | @constant before type gap name value hbefore htype htype_ne hgap hgap_ne hname hvalue =>
    -- the equals sign is in the second word, whatever comes after it
    have hsolid : ∀ c ∈ name ++ ['='], Text.isSpace c = false :=
      List.forall_mem_append.mpr ⟨isSpace_of_isSolid hname, by simp [Text.isSpace]⟩
    obtain ⟨tail, more, hsecond⟩ :=
      Text.exists_words_cons (by simp) hsolid (value.takeWhile (· ≠ '#'))
    have hcut : (name ++ '=' :: value).takeWhile (· ≠ '#') =
        name ++ ['='] ++ value.takeWhile (· ≠ '#') := by
      rw [Text.takeWhile_ne_append (hash_notMem_of_isSolid hname), List.append_assoc]
      rfl
    rw [readLine_eq, words_takeWhile_type hbefore htype htype_ne hgap hgap_ne, hcut, hsecond]
    exact if_pos (by simp)
  | separator hbefore hafter =>
    rw [readLine_eq, Text.takeWhile_ne_append (hash_notMem_of_isBlank hbefore),
      Text.words_append_left (isSpace_of_isBlank hbefore),
      words_takeWhile_last (List.cons_ne_nil _ _) (by decide) hafter]
    rfl
  | field hbefore htype htype_ne hgap hgap_ne hname hname_ne hplain hafter =>
    rw [readLine_eq, words_takeWhile_type hbefore htype htype_ne hgap hgap_ne,
      words_takeWhile_last hname_ne hname hafter]
    exact if_neg (by simpa using hplain)
  | comment _ _ ih => rw [readLine_eq, Text.takeWhile_ne_append_cons, ← readLine_eq, ih]

/-! ## Sections -/

variable {content : List DefinitionLine} {lines : List (List Char)}

/-- The section at the start of some lines, and those after it. -/
def assemble : List DefinitionLine → List Field × List (List Field)
  | [] => ([], [])
  | .nothing :: content => assemble content
  | .separator :: content => ([], (assemble content).1 :: (assemble content).2)
  | .field f :: content => (f :: (assemble content).1, (assemble content).2)

/-- A field on each line, and a separator between two sections. -/
def layout (sections : List (List Field)) : List DefinitionLine :=
  [.separator].intercalate (sections.map fun fields => fields.map .field)

theorem assemble_filter : ∀ content : List DefinitionLine,
    assemble (content.filter (· ≠ .nothing)) = assemble content
  | [] => rfl
  | .nothing :: content => assemble_filter content
  | .separator :: content => by
    rw [List.filter_cons_of_pos rfl, assemble, assemble, assemble_filter content]
  | .field f :: content => by
    rw [List.filter_cons_of_pos rfl, assemble, assemble, assemble_filter content]

theorem assemble_append (fields : List Field) (content : List DefinitionLine) :
    assemble (fields.map .field ++ content) =
      (fields ++ (assemble content).1, (assemble content).2) := by
  induction fields with
  | nil => rfl
  | cons f fields ih => rw [List.map_cons, List.cons_append, assemble, ih, List.cons_append]

theorem assemble_layout (fields : List Field) (more : List (List Field)) :
    assemble (layout (fields :: more)) = (fields, more) := by
  induction more generalizing fields with
  | nil => simpa [layout, assemble] using assemble_append fields []
  | cons next more ih =>
    have hlayout : layout (fields :: next :: more) =
        fields.map .field ++ .separator :: layout (next :: more) := by
      simp [layout, List.intercalate_cons_cons]
    rw [hlayout, assemble_append, assemble, ih, List.append_nil]

/-- Lines are read to what they say. -/
theorem readLines_eq_ok (h : List.Forall₂ Says lines content) (number : Nat) :
    readLines number lines = .ok (assemble content) := by
  induction h generalizing number with
  | nil => rfl
  | @cons line said lines content hsaid _ ih =>
    rw [readLines, hsaid.readLine, ih]
    cases said <;> rfl

/-- A line that can be read leaves the error to the lines after it. -/
theorem readLines_cons_eq_error_iff {e : DefinitionError} (h : isLone line = false) :
    readLines number (line :: lines) = .error e ↔ readLines (number + 1) lines = .error e := by
  obtain ⟨said, hsaid⟩ := exists_readLine h number
  rw [readLines, hsaid]
  cases readLines (number + 1) lines with
  | error e' => rfl
  | ok found => cases said <;> simp [bind, Except.bind, pure, Except.pure]

/-- The first lone line is reported, with its number. -/
theorem readLines_eq_error_iff {e : DefinitionError} :
    readLines number lines = .error e ↔
      ∃ before line after, lines = before ++ line :: after ∧ (∀ l ∈ before, isLone l = false) ∧
        isLone line ∧ e = ⟨number + before.length, String.ofList (bare line)⟩ := by
  induction lines generalizing number with
  | nil => simp [readLines]
  | cons line lines ih =>
    by_cases hline : isLone line
    · rw [readLines, readLine_of_isLone hline]
      constructor
      · intro h
        injection h with h
        exact ⟨[], line, lines, rfl, nofun, hline, h.symm⟩
      · rintro ⟨_ | ⟨first, before⟩, lone, after, heq, hbefore, -, rfl⟩
        · obtain ⟨rfl, rfl⟩ := List.cons.inj heq
          rfl
        · obtain ⟨rfl, rfl⟩ := List.cons.inj heq
          rw [hbefore line List.mem_cons_self] at hline
          contradiction
    · rw [Bool.not_eq_true] at hline
      rw [readLines_cons_eq_error_iff hline, ih]
      constructor
      · rintro ⟨before, lone, after, rfl, hbefore, hlone, rfl⟩
        refine ⟨line :: before, lone, after, rfl, List.forall_mem_cons.mpr ⟨hline, hbefore⟩, hlone,
          ?_⟩
        rw [List.length_cons, Nat.add_assoc, Nat.add_comm 1]
      · rintro ⟨_ | ⟨first, before⟩, lone, after, heq, hbefore, hlone, rfl⟩
        · obtain ⟨rfl, rfl⟩ := List.cons.inj heq
          rw [hline] at hlone
          contradiction
        · obtain ⟨rfl, rfl⟩ := List.cons.inj heq
          refine ⟨before, lone, after, rfl, (List.forall_mem_cons.mp hbefore).2, hlone, ?_⟩
          rw [List.length_cons, Nat.add_assoc, Nat.add_comm 1]

/-! ## Texts -/

/-- A carriage return at the end of a line is white space. -/
theorem readLine_dropReturn (number : Nat) (line : List Char) :
    readLine number (Text.dropReturn line) = readLine number line := by
  unfold Text.dropReturn
  split
  · rename_i hlast
    obtain ⟨start, rfl⟩ := List.getLast?_eq_some_iff.mp hlast
    rw [List.dropLast_concat, readLine_eq, readLine_eq]
    by_cases hcut : '#' ∈ start
    · obtain ⟨before, after, rfl⟩ := List.append_of_mem hcut
      rw [List.append_assoc, List.cons_append, Text.takeWhile_ne_append_cons,
        Text.takeWhile_ne_append_cons]
    · have hreturn : ∀ c ∈ ['\r'].takeWhile (· ≠ '#'), Text.isSpace c := by
        simp [Text.isSpace]
      rw [Text.takeWhile_ne_append hcut, Text.words_append_right hreturn,
        Text.takeWhile_ne_eq_self hcut]
  · rfl

theorem readLines_linesOfPieces (number : Nat) (pieces : List (List Char)) :
    readLines number (Text.linesOfPieces pieces) = readLines number pieces := by
  induction pieces using Text.linesOfPieces.induct generalizing number with
  | case1 => rfl
  | case2 => rfl
  | case3 last hlast => rw [Text.linesOfPieces, if_neg hlast]
  | case4 piece rest hrest ih =>
    rw [Text.linesOfPieces.eq_3 _ _ hrest, readLines, readLine_dropReturn, ih, readLines]

/-- It makes no difference whether a text is read line by line or between its line feeds. -/
theorem readLines_lines (text : String) :
    readLines 1 (Text.lines text) = readLines 1 (text.toList.splitOn '\n') :=
  readLines_linesOfPieces 1 _

theorem parse_eq_error_iff {text : String} {e : DefinitionError} :
    parse text = .error e ↔ readLines 1 (Text.lines text) = .error e := by
  unfold parse
  cases readLines 1 (Text.lines text) <;> simp [bind, Except.bind, pure, Except.pure]

theorem exists_parse_eq_error_iff {text : String} :
    (∃ e, parse text = .error e) ↔ ∃ line ∈ Text.lines text, isLone line := by
  simp only [parse_eq_error_iff, readLines_eq_error_iff]
  constructor
  · rintro ⟨e, before, line, after, hlines, -, hlone, -⟩
    exact ⟨line, hlines ▸ List.mem_append_right _ List.mem_cons_self, hlone⟩
  · rintro ⟨line, hmem, hlone⟩
    have hsome : ((Text.lines text).find? isLone).isSome :=
      List.find?_isSome.mpr ⟨line, hmem, hlone⟩
    obtain ⟨first, hfirst⟩ := Option.isSome_iff_exists.mp hsome
    obtain ⟨hfound, before, after, hlines, hbefore⟩ := List.find?_eq_some_iff_append.mp hfirst
    exact ⟨_, before, first, after, hlines, by simpa using hbefore, hfound, rfl⟩

theorem lf_notMem_lines (h : List.Forall₂ Says lines content) : ∀ l ∈ lines, '\n' ∉ l := by
  induction h with
  | nil => simp
  | cons hline _ ih => exact List.forall_mem_cons.mpr ⟨hline.lf_notMem, ih⟩

/-- A text is read to the sections that its lines say. -/
theorem parse_eq_ok (h : List.Forall₂ Says lines content) :
    parse (String.ofList (['\n'].intercalate lines)) =
      .ok ⟨(assemble content).1 :: (assemble content).2⟩ := by
  unfold parse
  rw [readLines_lines, String.toList_ofList]
  by_cases hnil : lines = []
  · subst hnil
    cases h
    rfl
  · rw [List.splitOn_intercalate _ (lf_notMem_lines h) hnil, readLines_eq_ok h]
    rfl

/-- Lines that say a list of sections, with whatever says nothing between them, are read to those
sections, and a field has the type of its first declaration. A text cannot be read exactly if it has
a line of a single word that is no separator, and the first such line is reported. -/
theorem parse_reads_sections :
    (∀ (sections : List (List Field)) (lines : List (List Char)) (content : List DefinitionLine),
      sections ≠ [] → List.Forall₂ Says lines content →
      content.filter (· ≠ .nothing) = layout sections →
      ∃ d, parse (String.ofList (['\n'].intercalate lines)) = .ok d ∧ d.sections = sections ∧
        d.fieldTypes.names = (sections.flatten.map Field.name).eraseDups ∧
        ∀ name, d.fieldTypes.get? name =
          (sections.flatten.find? fun f => f.name = name).map Field.type) ∧
    ∀ text : String,
      ((∃ e, parse text = .error e) ↔ ∃ line ∈ Text.lines text, isLone line) ∧
      ∀ e, parse text = .error e → ∃ before line after, Text.lines text = before ++ line :: after ∧
        (∀ l ∈ before, isLone l = false) ∧ isLone line ∧
        e = ⟨before.length + 1, String.ofList (bare line)⟩ := by
  refine ⟨?_, fun text => ⟨exists_parse_eq_error_iff, ?_⟩⟩
  · intro sections lines content hne hlines hcontent
    obtain ⟨first, more, rfl⟩ := List.exists_cons_of_ne_nil hne
    have hread := parse_eq_ok hlines
    rw [← assemble_filter, hcontent, assemble_layout] at hread
    exact ⟨_, hread, rfl, names_fieldTypes _, get?_fieldTypes _⟩
  · intro e he
    rw [parse_eq_error_iff, readLines_eq_error_iff] at he
    simpa only [Nat.add_comm 1] using he

/-- A goal and a result with a field of one name, among lines that say nothing. -/
def mixedLines : List (List Char) :=
  ["# goal".toList, "\tint32  x\r".toList, "string M=a # b".toList, " --- # result".toList,
    "bool x".toList, []]

theorem says_mixedLines : List.Forall₂ Says mixedLines
    [.nothing, .field ⟨"int32", "x"⟩, .nothing, .separator, .field ⟨"bool", "x"⟩, .nothing] := by
  have hgoal := @Says.comment [] " goal".toList _ (.blank rfl) (by decide)
  have hint := @Says.field ['\t'] "int32".toList [' ', ' '] "x".toList ['\r'] rfl rfl (by decide)
    rfl (by decide) rfl (by decide) (by decide) rfl
  have hconstant := @Says.constant [] "string".toList [' '] "M".toList "a # b".toList rfl rfl
    (by decide) rfl (by decide) rfl (by decide)
  have hresult := @Says.comment _ " result".toList _ (@Says.separator [' '] [' '] rfl rfl)
    (by decide)
  have hbool := @Says.field [] "bool".toList [' '] "x".toList [] rfl rfl (by decide) rfl
    (by decide) rfl (by decide) (by decide) rfl
  exact .cons hgoal (.cons hint (.cons hconstant (.cons hresult (.cons hbool
    (.cons (.blank rfl) .nil)))))

/-- The first type of the field counts, and the first word that stands alone is reported. -/
theorem parse_reads_sections_mixed :
    (∃ d, parse (String.ofList (['\n'].intercalate mixedLines)) = .ok d ∧
      d.sections = [[⟨"int32", "x"⟩], [⟨"bool", "x"⟩]] ∧ d.fieldTypes.names = ["x"] ∧
      d.fieldTypes.get? "x" = some "int32") ∧
    parse "int32 x\nlone # a\nlast" = .error ⟨2, "lone"⟩ ∧
    ∃ before line after, Text.lines "int32 x\nlone # a\nlast" = before ++ line :: after ∧
      (∀ l ∈ before, isLone l = false) ∧ isLone line ∧
      (⟨2, "lone"⟩ : DefinitionError) = ⟨before.length + 1, String.ofList (bare line)⟩ := by
  have hlone : parse "int32 x\nlone # a\nlast" = .error ⟨2, "lone"⟩ := by decide
  refine ⟨?_, hlone, (parse_reads_sections.2 _).2 _ hlone⟩
  obtain ⟨d, hparse, hsections, hnames, htypes⟩ := parse_reads_sections.1
    [[⟨"int32", "x"⟩], [⟨"bool", "x"⟩]] mixedLines _ (List.cons_ne_nil _ _) says_mixedLines rfl
  exact ⟨d, hparse, hsections, hnames, htypes "x"⟩

/-- A text without a line has one section, which is empty. -/
theorem parse_of_no_sections : ¬ ∀ (sections : List (List Field)) (lines : List (List Char))
    (content : List DefinitionLine), List.Forall₂ Says lines content →
      content.filter (· ≠ .nothing) = layout sections →
      ∃ d, parse (String.ofList (['\n'].intercalate lines)) = .ok d ∧ d.sections = sections := by
  intro h
  obtain ⟨d, hd, hsections⟩ := h [] [] [] .nil rfl
  have hparse : parse (String.ofList (['\n'].intercalate [])) = .ok ⟨[[]]⟩ := rfl
  rw [hparse, Except.ok.injEq] at hd
  rw [← hd] at hsections
  exact List.cons_ne_nil _ _ hsections

end Definition

end SkillCompiler
