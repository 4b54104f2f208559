import Keybinds.Proofs.Text.Words
import Keybinds.Version
import Mathlib.Data.Prod.Lex

/-!
# Texts and order of versions

`Names` tells which texts name a version: one to three numbers with points between them, behind an
optional `v` and between any blanks. A version is read from the texts that name it and from no
others (`read?_eq_some_iff`), its own text among them (`read?_text`). Versions are compared as the
triples of their parts, of which the first counts most (`lt_iff_triple`, `triple_later`).
-/

namespace Keybinds

/-! ## Numbers -/

namespace Text

/-- Decimal digits that spell a number, with or without a plus sign in front. -/
def Spells (cs : List Char) (n : Nat) : Prop :=
  ∃ ds, ds ≠ [] ∧ (∀ c ∈ ds, c.isDigit = true) ∧ (cs = ds ∨ cs = '+' :: ds) ∧
    Nat.ofDigitChars 10 ds 0 = n

theorem readDigits?_eq_some_iff {cs : List Char} {n : Nat} :
    readDigits? cs = some n ↔
      cs ≠ [] ∧ (∀ c ∈ cs, c.isDigit = true) ∧ Nat.ofDigitChars 10 cs 0 = n := by
  simp [readDigits?, and_assoc]

theorem readUnsigned?_eq_some_iff_spells {bound n : Nat} {cs : List Char} :
    readUnsigned? bound cs = some n ↔ Spells cs n ∧ n < bound := by
  unfold readUnsigned?
  rw [Option.filter_eq_some_iff, decide_eq_true_eq, readDigits?_eq_some_iff]
  refine and_congr_left fun _ => ?_
  constructor
  · rintro ⟨hne, hdigits, hvalue⟩
    refine ⟨_, hne, hdigits, ?_, hvalue⟩
    split
    · exact Or.inr rfl
    · exact Or.inl rfl
  · rintro ⟨ds, hne, hdigits, rfl | rfl, hvalue⟩
    · -- digits alone do not start with a plus sign
      split
      · exact absurd (hdigits '+' List.mem_cons_self) (by decide)
      · exact ⟨hne, hdigits, hvalue⟩
    · exact ⟨hne, hdigits, hvalue⟩

/-- A number is read from its spellings, if it is in range. -/
theorem readUInt32?_eq_some_iff {cs : List Char} {n : UInt32} :
    readUInt32? cs = some n ↔ Spells cs n.toNat := by
  unfold readUInt32?
  rw [Option.map_eq_some_iff]
  simp only [readUnsigned?_eq_some_iff_spells]
  constructor
  · rintro ⟨k, ⟨hspells, hk⟩, rfl⟩
    rwa [UInt32.toNat_ofNat_of_lt' hk]
  · intro h
    exact ⟨n.toNat, ⟨h, n.toNat_lt⟩, UInt32.ofNat_toNat⟩

/-- The digits of a number, a plus sign and nothing else. -/
theorem Spells.forall_mem {cs : List Char} {n : Nat} (h : Spells cs n) :
    cs ≠ [] ∧ ∀ c ∈ cs, c.isDigit = true ∨ c = '+' := by
  obtain ⟨ds, hne, hdigits, rfl | rfl, -⟩ := h
  · exact ⟨hne, fun c hc => Or.inl (hdigits c hc)⟩
  · refine ⟨List.cons_ne_nil _ _, fun c hc => ?_⟩
    rcases List.mem_cons.1 hc with rfl | hc
    · exact Or.inr rfl
    · exact Or.inl (hdigits c hc)

theorem Spells.notMem {cs : List Char} {n : Nat} (h : Spells cs n) : '.' ∉ cs := by
  intro hc
  rcases h.forall_mem.2 '.' hc with hdigit | hplus
  · exact absurd hdigit (by decide)
  · exact absurd hplus (by decide)

theorem spells_digits (n : Nat) : Spells (digits n) n :=
  ⟨digits n, (isWord_digits n).1, fun _ hc => isDigit_of_mem_digits hc, Or.inl rfl,
    Nat.ofDigitChars_ten_toDigits⟩

end Text

namespace Version

open Text (AllBlank IsWord Spells isBlank strip)

/-! ## Texts -/

/-- One to three numbers with points between them; the missing ones are zero. -/
inductive NamesParts : List Char → Version → Prop
  | major {a : List Char} {x : UInt32} (ha : Spells a x.toNat) : NamesParts a ⟨x, 0, 0⟩
  | minor {a b : List Char} {x y : UInt32} (ha : Spells a x.toNat) (hb : Spells b y.toNat) :
      NamesParts (a ++ '.' :: b) ⟨x, y, 0⟩
  | patch {a b c : List Char} {x y z : UInt32} (ha : Spells a x.toNat) (hb : Spells b y.toNat)
      (hc : Spells c z.toNat) : NamesParts (a ++ '.' :: (b ++ '.' :: c)) ⟨x, y, z⟩

/-- The parts between blanks, with or without a `v` in front. -/
inductive Names : List Char → Version → Prop
  | intro {lead mark parts trail : List Char} {v : Version} (hlead : AllBlank lead)
      (htrail : AllBlank trail) (hmark : mark ∈ [[], ['v'], ['V']]) (hparts : NamesParts parts v) :
      Names (lead ++ (mark ++ parts ++ trail)) v

/-- The version that numbers with points between them make. -/
def readParts? (cs : List Char) : Option Version :=
  ((cs.splitOn '.').mapM Text.readUInt32?).bind ofParts?

theorem read?_eq (s : String) : read? s = readParts? (dropMark (strip s.toList)) := rfl

theorem cases_of_ofParts? {ns : List UInt32} {v : Version} (h : ofParts? ns = some v) :
    (∃ x, ns = [x] ∧ v = ⟨x, 0, 0⟩) ∨ (∃ x y, ns = [x, y] ∧ v = ⟨x, y, 0⟩) ∨
      ∃ x y z, ns = [x, y, z] ∧ v = ⟨x, y, z⟩ := by
  unfold ofParts? at h
  split at h
  · exact Or.inl ⟨_, rfl, (Option.some.inj h).symm⟩
  · exact Or.inr (Or.inl ⟨_, _, rfl, (Option.some.inj h).symm⟩)
  · exact Or.inr (Or.inr ⟨_, _, _, rfl, (Option.some.inj h).symm⟩)
  · cases h

theorem readParts?_eq_some_iff {cs : List Char} {v : Version} :
    readParts? cs = some v ↔ NamesParts cs v := by
  unfold readParts?
  rw [Option.bind_eq_some_iff]
  simp only [mapM_eq_some_iff, Text.readUInt32?_eq_some_iff]
  constructor
  · rintro ⟨ns, hns, hv⟩
    have hcs : ['.'].intercalate (cs.splitOn '.') = cs := List.intercalate_splitOn '.'
    rcases cases_of_ofParts? hv with ⟨x, rfl, rfl⟩ | ⟨x, y, rfl, rfl⟩ | ⟨x, y, z, rfl, rfl⟩
    · obtain ⟨a, ps, ha, hps, hsplit⟩ := List.forall₂_cons_right_iff.1 hns
      obtain rfl := List.forall₂_nil_right_iff.1 hps
      rw [← hcs, hsplit]
      simpa using NamesParts.major ha
    · obtain ⟨a, ps, ha, hps, hsplit⟩ := List.forall₂_cons_right_iff.1 hns
      obtain ⟨b, qs, hb, hqs, rfl⟩ := List.forall₂_cons_right_iff.1 hps
      obtain rfl := List.forall₂_nil_right_iff.1 hqs
      rw [← hcs, hsplit]
      simpa using NamesParts.minor ha hb
    · obtain ⟨a, ps, ha, hps, hsplit⟩ := List.forall₂_cons_right_iff.1 hns
      obtain ⟨b, qs, hb, hqs, rfl⟩ := List.forall₂_cons_right_iff.1 hps
      obtain ⟨c, rs, hc, hrs, rfl⟩ := List.forall₂_cons_right_iff.1 hqs
      obtain rfl := List.forall₂_nil_right_iff.1 hrs
      rw [← hcs, hsplit]
      simpa using NamesParts.patch ha hb hc
  · intro h
    -- No number holds a point, so the text is split just at those that are written.
    cases h with
    | @major a x ha =>
      refine ⟨[x], ?_, rfl⟩
      rw [List.splitOn_eq_singleton ha.notMem]
      exact .cons ha .nil
    | @minor a b x y ha hb =>
      refine ⟨[x, y], ?_, rfl⟩
      rw [List.splitOn_append_cons_self_of_not_mem ha.notMem, List.splitOn_eq_singleton hb.notMem]
      exact .cons ha (.cons hb .nil)
    | @patch a b c x y z ha hb hc =>
      refine ⟨[x, y, z], ?_, rfl⟩
      rw [List.splitOn_append_cons_self_of_not_mem ha.notMem,
        List.splitOn_append_cons_self_of_not_mem hb.notMem, List.splitOn_eq_singleton hc.notMem]
      exact .cons ha (.cons hb (.cons hc .nil))

/-- The parts start with a digit or a plus sign and hold nothing but digits, signs and points. -/
theorem NamesParts.forall_mem {cs : List Char} {v : Version} (h : NamesParts cs v) :
    (∃ c ∈ cs.head?, c.isDigit = true ∨ c = '+') ∧
      ∀ c ∈ cs, c.isDigit = true ∨ c = '+' ∨ c = '.' := by
  have hhead : ∀ {a : List Char} {n : Nat} (rest : List Char), Spells a n →
      ∃ c ∈ (a ++ rest).head?, c.isDigit = true ∨ c = '+' := by
    intro a n rest ha
    obtain ⟨hne, hall⟩ := ha.forall_mem
    obtain ⟨c, a, rfl⟩ := List.exists_cons_of_ne_nil hne
    exact ⟨c, rfl, hall c List.mem_cons_self⟩
  have hmem : ∀ {a : List Char} {n : Nat}, Spells a n →
      ∀ c ∈ a, c.isDigit = true ∨ c = '+' ∨ c = '.' :=
    fun ha c hc => (ha.forall_mem.2 c hc).imp id Or.inl
  cases h with
  | major ha => exact ⟨by simpa using hhead [] ha, hmem ha⟩
  | minor ha hb =>
    refine ⟨hhead _ ha, ?_⟩
    simp only [List.mem_append, List.mem_cons]
    rintro c (hc | rfl | hc)
    · exact hmem ha c hc
    · simp
    · exact hmem hb c hc
  | patch ha hb hc =>
    refine ⟨hhead _ ha, ?_⟩
    simp only [List.mem_append, List.mem_cons]
    rintro d (hd | rfl | hd | rfl | hd)
    · exact hmem ha d hd
    · simp
    · exact hmem hb d hd
    · simp
    · exact hmem hc d hd

theorem NamesParts.isWord {cs : List Char} {v : Version} (h : NamesParts cs v) {mark : List Char}
    (hmark : mark ∈ [[], ['v'], ['V']]) : IsWord (mark ++ cs) := by
  obtain ⟨⟨c, hc, -⟩, hmem⟩ := h.forall_mem
  refine ⟨fun hnil => ?_, fun d hd => ?_⟩
  · rw [(List.append_eq_nil_iff.1 hnil).2] at hc
    cases hc
  · rcases List.mem_append.1 hd with hd | hd
    · simp only [List.mem_cons, List.not_mem_nil, or_false] at hmark
      rcases hmark with rfl | rfl | rfl
      · cases hd
      · rw [List.mem_singleton.1 hd]
        rfl
      · rw [List.mem_singleton.1 hd]
        rfl
    · rcases hmem d hd with hdigit | rfl | rfl
      · exact Text.not_isBlank_of_isDigit hdigit
      · rfl
      · rfl

/-- In front of the parts, just the mark is dropped. -/
theorem NamesParts.dropMark_append {cs : List Char} {v : Version} (h : NamesParts cs v)
    {mark : List Char} (hmark : mark ∈ [[], ['v'], ['V']]) : dropMark (mark ++ cs) = cs := by
  obtain ⟨⟨c, hc, hdigit⟩, -⟩ := h.forall_mem
  obtain ⟨rest, rfl⟩ := List.head?_eq_some_iff.1 hc
  have hne : c ≠ 'v' ∧ c ≠ 'V' := by
    constructor <;> rintro rfl <;> exact absurd hdigit (by decide)
  simp only [List.mem_cons, List.not_mem_nil, or_false] at hmark
  rcases hmark with rfl | rfl | rfl
  · show dropMark (c :: rest) = c :: rest
    unfold dropMark
    split
    · rename_i hcons
      exact absurd (List.cons.inj hcons).1 hne.1
    · rename_i hcons
      exact absurd (List.cons.inj hcons).1 hne.2
    · rfl
  · rfl
  · rfl

theorem exists_mark (cs : List Char) : ∃ mark ∈ [[], ['v'], ['V']], cs = mark ++ dropMark cs := by
  unfold dropMark
  split
  · exact ⟨['v'], by simp, rfl⟩
  · exact ⟨['V'], by simp, rfl⟩
  · exact ⟨[], by simp, rfl⟩

/-- A version is read from the texts that name it, and from no others. -/
theorem read?_eq_some_iff {s : String} {v : Version} : read? s = some v ↔ Names s.toList v := by
  rw [read?_eq, readParts?_eq_some_iff]
  constructor
  · intro h
    obtain ⟨lead, trail, hlead, htrail, hs⟩ := Text.exists_strip s.toList
    obtain ⟨mark, hmark, hstrip⟩ := exists_mark (strip s.toList)
    rw [hstrip] at hs
    rw [hs]
    exact .intro hlead htrail hmark h
  · generalize s.toList = cs
    rintro ⟨hlead, htrail, hmark, hparts⟩
    rw [Text.strip_append_left hlead, Text.strip_append_right htrail,
      Text.strip_eq_self (hparts.isWord hmark).trimmed, hparts.dropMark_append hmark]
    exact hparts

example : read? "\u00a0V+2.01 " = some ⟨2, 1, 0⟩ := by decide +kernel

theorem namesParts_chars (v : Version) : NamesParts v.chars v := by
  have h := NamesParts.patch (Text.spells_digits v.major.toNat) (Text.spells_digits v.minor.toNat)
    (Text.spells_digits v.patch.toNat)
  unfold chars
  simpa using h

/-- A version is read back from its own text. -/
theorem read?_text (v : Version) : read? v.text = some v := by
  rw [read?_eq_some_iff, text, String.toList_ofList]
  have h : Names ([] ++ ([] ++ v.chars ++ [])) v :=
    .intro Text.allBlank_nil Text.allBlank_nil (by simp) (namesParts_chars v)
  simpa using h

/-! ## Order -/

/-- The parts as numbers, of which the first that differ decide. -/
def triple (v : Version) : ℕ ×ₗ ℕ ×ₗ ℕ :=
  toLex (v.major.toNat, toLex (v.minor.toNat, v.patch.toNat))

theorem lt_iff (a b : Version) :
    a < b ↔ a.major.toNat < b.major.toNat ∨ a.major.toNat = b.major.toNat ∧
      (a.minor.toNat < b.minor.toNat ∨ a.minor.toNat = b.minor.toNat ∧
        a.patch.toNat < b.patch.toNat) := by
  show a.precedes b = true ↔ _
  simp only [Version.precedes, Bool.or_eq_true, Bool.and_eq_true, decide_eq_true_eq, beq_iff_eq,
    UInt32.lt_iff_toNat_lt, ← UInt32.toNat_inj]

theorem lt_iff_triple {a b : Version} : a < b ↔ a.triple < b.triple := by
  rw [lt_iff]
  unfold triple
  rw [Prod.Lex.toLex_lt_toLex, Prod.Lex.toLex_lt_toLex]

theorem triple_later (a b : Version) : (a.later b).triple = max a.triple b.triple := by
  unfold later
  split_ifs with h
  · exact (max_eq_right (lt_iff_triple.1 h).le).symm
  · exact (max_eq_left (not_lt.1 fun hlt => h (lt_iff_triple.2 hlt))).symm

end Version

end Keybinds
