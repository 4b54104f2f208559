import Keybinds.Proofs.BindFile.Declared
import Keybinds.Proofs.Chain.Commands

/-!
# Every line is accounted for

What becomes of each line of a text when it is read (`accounts_read`). A line that is not blank is a
comment, is skipped, or holds a declaration, and comments and skipped lines are kept in the order of
their numbers (`perm_numbers`). Of the declarations every one counts, as an entry or as a duplicate:
a name stands where it is declared first and has the chain that it is declared with last
(`Tracks`).
-/

namespace Keybinds.BindFile

open Text (OneLine Trimmed)

variable {rules : NameRules}

/-! ## Numbered lines -/

/-- The lines of a text, each with its number. -/
def numberedLines (text : String) : List (List Char × Nat) := (Text.lines text.toList).zipIdx 1

/-- The declarations on lines, each with the number of its line. -/
def declarationsOf (rules : NameRules) (lines : List (List Char × Nat)) :
    List (Nat × Declaration) :=
  lines.filterMap fun l => (readLine rules l.2 l.1).declaration?.map fun d => (l.2, d)

theorem map_snd_declarationsOf (rules : NameRules) (number : Nat) (raws : List (List Char)) :
    (declarationsOf rules (raws.zipIdx number)).map Prod.snd =
      (readLines rules number raws).filterMap Line.declaration? := by
  unfold declarationsOf
  rw [readLines_eq_map_zipIdx, List.filterMap_map, List.map_filterMap]
  congr 1
  funext l
  show Option.map Prod.snd (Option.map _ _) = (readLine rules l.2 l.1).declaration?
  cases (readLine rules l.2 l.1).declaration? <;> rfl

/-- Just the empty one of the trimmed lines holds nothing. -/
theorem readTrimmed_eq_blank_iff {line : List Char} :
    readTrimmed rules line = .blank ↔ line = [] := by
  constructor
  · intro h
    unfold readTrimmed at h
    split at h
    · rfl
    · cases h
    · split at h <;> cases h
  · rintro rfl
    rfl

theorem toList_of_readTrimmed {line : List Char} {text : String}
    (h : readTrimmed rules line = .comment text) : text.toList = line := by
  unfold readTrimmed at h
  split at h
  · cases h
  · cases h
    exact String.toList_ofList
  · split at h <;> cases h

/-- The lines that are not blank are the comments, the skipped lines and the declarations. -/
theorem perm_numbers (rules : NameRules) (lines : List (List Char × Nat)) :
    ((commentsOf rules lines).map Comment.number ++
      ((skippedOf rules lines).map SkippedLine.number ++
        (declarationsOf rules lines).map Prod.fst)).Perm
      ((lines.filter fun l => !(trimLine l.2 l.1).isEmpty).map Prod.snd) := by
  induction lines with
  | nil => exact List.Perm.refl _
  | cons l lines ih =>
    have hkept : readLine rules l.2 l.1 ≠ .blank →
        (l :: lines).filter (fun l => !(trimLine l.2 l.1).isEmpty) =
          l :: lines.filter fun l => !(trimLine l.2 l.1).isEmpty := by
      intro hne
      refine List.filter_cons_of_pos ?_
      rw [Bool.not_eq_true', ← Bool.not_eq_true, List.isEmpty_iff, ← readTrimmed_eq_blank_iff]
      exact hne
    unfold commentsOf skippedOf declarationsOf at ih ⊢
    rw [filterMap_cons_toList, filterMap_cons_toList, filterMap_cons_toList, List.map_append,
      List.map_append, List.map_append]
    cases hline : readLine rules l.2 l.1 with
    | blank =>
      have hempty : trimLine l.2 l.1 = [] := readTrimmed_eq_blank_iff.1 hline
      rw [List.filter_cons_of_neg (by rw [hempty]; exact Bool.false_ne_true)]
      exact ih
    | comment text =>
      rw [hkept (hline ▸ nofun)]
      exact ih.cons l.2
    | skipped fault =>
      rw [hkept (hline ▸ nofun)]
      exact List.perm_middle.trans (ih.cons l.2)
    | declaration d =>
      rw [hkept (hline ▸ nofun)]
      exact (List.perm_middle.append_left _).trans (List.perm_middle.trans (ih.cons l.2))

theorem pairwise_snd_numberedLines (text : String) :
    ((numberedLines text).map Prod.snd).Pairwise (· < ·) := by
  unfold numberedLines
  rw [List.zipIdx_map_snd]
  exact List.pairwise_lt_range' 1

/-- Comments are kept in the order of their numbers. -/
theorem pairwise_commentsOf (rules : NameRules) (text : String) :
    ((commentsOf rules (numberedLines text)).map Comment.number).Pairwise (· < ·) := by
  refine (pairwise_snd_numberedLines text).sublist (map_filterMap_sublist (fun l c hc => ?_) _)
  unfold Line.comment? at hc
  split at hc
  · rw [← Option.some.inj hc]
  · cases hc

/-- Skipped lines are kept in the order of their numbers. -/
theorem pairwise_skippedOf (rules : NameRules) (text : String) :
    ((skippedOf rules (numberedLines text)).map SkippedLine.number).Pairwise (· < ·) := by
  refine (pairwise_snd_numberedLines text).sublist (map_filterMap_sublist (fun l line hl => ?_) _)
  unfold Line.skipped? at hl
  split at hl
  · rw [← Option.some.inj hl]
  · cases hl

/-- A comment has the number of its line and the text without the blanks at its ends. -/
theorem exists_line_of_mem_commentsOf {lines : List (List Char × Nat)} {c : Comment}
    (h : c ∈ commentsOf rules lines) :
    ∃ raw, (raw, c.number) ∈ lines ∧ trimLine c.number raw = c.text.toList := by
  obtain ⟨⟨raw, number⟩, hl, hc⟩ := List.mem_filterMap.1 h
  cases hline : readLine rules number raw with
  | comment text =>
    rw [hline] at hc
    obtain rfl := Option.some.inj hc
    exact ⟨raw, hl, (toList_of_readTrimmed hline).symm⟩
  | _ =>
    rw [hline] at hc
    cases hc

/-- A skipped line has the number and the text of a line. -/
theorem mem_of_mem_skippedOf {lines : List (List Char × Nat)} {line : SkippedLine}
    (h : line ∈ skippedOf rules lines) : (line.text.toList, line.number) ∈ lines := by
  obtain ⟨⟨raw, number⟩, hl, hskipped⟩ := List.mem_filterMap.1 h
  cases hline : readLine rules number raw with
  | skipped fault =>
    rw [hline] at hskipped
    obtain rfl := Option.some.inj hskipped
    rwa [String.toList_ofList]
  | _ =>
    rw [hline] at hskipped
    cases hskipped

/-! ## Entries -/

/-- A command is trimmed, not empty, and on one line. -/
structure IsTidy (command : String) : Prop where
  trimmed : Trimmed command.toList
  ne_nil : command.toList ≠ []
  oneLine : OneLine command.toList

theorem Declares.isTidy {line : List Char} {d : Declaration} (h : Declares rules line d)
    (hline : OneLine line) {command : String} (hcommand : command ∈ d.chain) :
    IsTidy command := by
  obtain ⟨body, hbody, hsplit⟩ := h.body
  rw [← hsplit] at hcommand
  obtain ⟨hne, part, -, hpart⟩ := Chain.mem_split.1 hcommand
  have hpiece := Chain.infix_of_mem_split hcommand
  rw [String.toList_ofList] at hpiece
  exact ⟨hpart ▸ Text.trimmed_strip part, hne,
    fun hmem => hline ((hpiece.trans hbody).subset hmem)⟩

/-- An entry of a realm as its last declaration wants it. -/
structure Enters (options : Options) (ds : List Declaration) (file : BindFile) (realm : Realm)
    (e : String × List String) : Prop where
  last : ∃ d, lastOf realm e.1 ds = some d ∧
    d.chain = writtenChain (decide (e.1 ∈ file.stabilized realm)) e.2
  accepted : accepts options.rules realm e.1 = true
  chain_ne_nil : e.2 ≠ []
  tidy : ∀ command ∈ e.2, IsTidy command

/-- A name whose last declaration is mirrored, where mirrors are looked for. -/
def IsMirrored (options : Options) (ds : List Declaration) (realm : Realm) (name : String) :
    Prop :=
  options.detectMirrors = true ∧
    ∃ d half, lastOf realm name ds = some d ∧ half ≠ [] ∧ d.chain = Chain.mirror half

theorem snd_stored_iff {options : Options} {d : Declaration} :
    (stored options d).2 = true ↔
      options.detectMirrors = true ∧ ∃ half, half ≠ [] ∧ d.chain = Chain.mirror half := by
  have hhalf : ∀ half,
      Chain.half? d.chain = some half ↔ half ≠ [] ∧ d.chain = Chain.mirror half := by
    intro half
    rw [Chain.half?_eq_some_iff]
    refine and_congr_left ?_
    intro heq
    rw [heq]
    unfold Chain.mirror
    rw [ne_eq, List.append_eq_nil_iff, List.reverse_eq_nil_iff, and_self]
  simp only [← hhalf]
  unfold stored collapse
  cases options.detectMirrors <;> cases Chain.half? d.chain <;> simp

/-! ## The account -/

/-- The declarations of a text in order. -/
def declarationsIn (rules : NameRules) (text : String) : List Declaration :=
  (declarationsOf rules (numberedLines text)).map Prod.snd

/-- Everything in a text is accounted for in the file that was read from it: each line that is not
blank, under its number, and each declaration. -/
structure Accounts (options : Options) (text : String) (file : BindFile) : Prop where
  numbers : (file.comments.map Comment.number ++ (file.skipped.map SkippedLine.number ++
      (declarationsOf options.rules (numberedLines text)).map Prod.fst)).Perm
    (((numberedLines text).filter fun l => !(trimLine l.2 l.1).isEmpty).map Prod.snd)
  comments : ∀ c ∈ file.comments,
    ∃ raw, (raw, c.number) ∈ numberedLines text ∧ trimLine c.number raw = c.text.toList
  skipped : ∀ line ∈ file.skipped, (line.text.toList, line.number) ∈ numberedLines text
  commentsInOrder : (file.comments.map Comment.number).Pairwise (· < ·)
  skippedInOrder : (file.skipped.map SkippedLine.number).Pairwise (· < ·)
  counted : file.keys.size + file.aliases.size + file.duplicates.length =
    (declarationsIn options.rules text).length
  names : ∀ realm, (file.declared realm).keys =
    ((inRealm realm (declarationsIn options.rules text)).map Declaration.name).eraseDups
  entries : ∀ realm, ∀ e ∈ (file.declared realm).entries,
    Enters options (declarationsIn options.rules text) file realm e
  stabilized : ∀ realm name, name ∈ file.stabilized realm ↔
    IsMirrored options (declarationsIn options.rules text) realm name
  nodup : ∀ realm, (file.stabilized realm).Nodup

theorem declarationsIn_eq (rules : NameRules) (text : String) :
    declarationsIn rules text =
      (readLines rules 1 (Text.lines text.toList)).filterMap Line.declaration? :=
  map_snd_declarationsOf rules 1 (Text.lines text.toList)

theorem notes_read (options : Options) (text : String) :
    (read options text).comments = commentsOf options.rules (numberedLines text) ∧
      (read options text).skipped = skippedOf options.rules (numberedLines text) := by
  unfold read
  rw [enterLines_eq]
  exact ⟨rfl, rfl⟩

/-- An entry of a file that was read is as its last declaration wants it. -/
theorem enters_of_mem_read {options : Options} {text : String} {realm : Realm}
    {e : String × List String} (he : e ∈ ((read options text).declared realm).entries) :
    Enters options (declarationsIn options.rules text) (read options text) realm e := by
  rw [declarationsIn_eq]
  obtain ⟨d, hlast, hstored⟩ := (tracks_read options text).exists_lastOf he
  obtain ⟨hd, hrealm, hname⟩ := mem_of_lastOf hlast
  obtain ⟨line, hline, hdeclares⟩ := exists_declares_of_mem hd
  have hchain := writtenChain_stored options d
  rw [hstored] at hchain
  refine ⟨⟨d, hlast, hchain.symm⟩, ?_, chain_ne_nil_of_mem_read realm he, ?_⟩
  · rw [← hrealm, ← hname]
    exact hdeclares.accepted
  · intro command hcommand
    refine hdeclares.isTidy (Text.infix_of_mem_lines hline).2 ?_
    rw [← hchain]
    exact mem_writtenChain.2 hcommand

/-- Every line of every text is accounted for, by all rules, whether mirrors are looked for or
not. -/
theorem accounts_read (options : Options) (text : String) :
    Accounts options text (read options text) := by
  have htracks := tracks_read options text
  rw [← declarationsIn_eq] at htracks
  obtain ⟨hcomments, hskipped⟩ := notes_read options text
  constructor
  case numbers =>
    rw [hcomments, hskipped]
    exact perm_numbers options.rules (numberedLines text)
  case comments =>
    rw [hcomments]
    exact fun c => exists_line_of_mem_commentsOf
  case skipped =>
    rw [hskipped]
    exact fun line => mem_of_mem_skippedOf
  case commentsInOrder => exact hcomments ▸ pairwise_commentsOf options.rules text
  case skippedInOrder => exact hskipped ▸ pairwise_skippedOf options.rules text
  case counted => exact htracks.counted
  case names => exact htracks.keys
  case entries => exact fun realm e => enters_of_mem_read
  case stabilized =>
    intro realm name
    rw [htracks.listed]
    simp only [snd_stored_iff]
    unfold IsMirrored
    constructor
    · rintro ⟨d, hlast, hdetect, half, hmirror⟩
      exact ⟨hdetect, d, half, hlast, hmirror⟩
    · rintro ⟨hdetect, d, half, hlast, hmirror⟩
      exact ⟨d, hlast, hdetect, half, hmirror⟩
  case nodup => exact htracks.nodup

end Keybinds.BindFile
