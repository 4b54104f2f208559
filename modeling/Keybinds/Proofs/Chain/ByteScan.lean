import Keybinds.Proofs.Chain.Checked
import Keybinds.Proofs.Chain.Encoded
import Keybinds.Proofs.Chain.Parts
import Keybinds.Proofs.List

/-!
# The scan over bytes

`scansExactly_scanBytes`: the scan over the bytes of a body reads and slices only where it may, and
gives the parts of the scan over its characters.

1. At the start of a character each test on bytes is the test on characters (`opensAt?_offset`,
   `afterPairAt?_offset`).
2. Between two characters the scan stands at the offset behind the text it went over, or one byte
   further if the next character is held (`scanBehind`). All bytes of a character beyond ASCII are
   passed over, also from the second one on (`scanBehind_wide`), so the scan goes over every
   character as the cursor does (`scanBehind_next`, `scanBehind_advance`).
3. A separator is met in front of an ASCII character only, so each part lies at its offsets: both
   stand between two characters, and the bytes from the one to the other are those of the part
   (`scanBehind_of_cuts`, `liesAt_of_cuts`).
-/

namespace Keybinds.Chain

open Text (isAsciiBlank)
open Cursor

/-! ## Tests at the start of a character -/

def Quoting.map {α β : Type} (f : α → β) : Quoting α → Quoting β
  | .outside => .outside
  | .quoted mark => .quoted (f mark)
  | .doubled mark => .doubled (f mark)

theorem Quoting.map_bne_outside {α β : Type} [DecidableEq α] [DecidableEq β] (f : α → β)
    (state : Quoting α) : (state.map f != .outside) = (state != .outside) := by
  cases state <;> rfl

/-- Whether a word may start behind the first characters of a part. -/
def wordStartBehind (q : List Char) : Bool := q.getLast?.all isAsciiBlank

theorem pairOccursFrom_iff {bytes : ByteArray} {m : UInt8} {i : Nat} {l : List UInt8}
    (h : StandsAt bytes i l) : pairOccursFrom bytes m i = true ↔ [m, m] <:+: l := by
  induction l generalizing i with
  | nil =>
    rw [pairOccursFrom, if_neg (Nat.not_lt.2 h.size_le)]
    simp
  | cons b l ih =>
    rw [pairOccursFrom, if_pos h.lt_size, h.getElem?_eq, h.tail.getElem?_eq, pair_infix_cons_iff,
      ← ih h.tail]
    simp

section

variable {body : String} {before q cs : List Char}

theorem wordStartsAt?_offset (hbody : body.toList = before ++ (q ++ cs)) :
    wordStartsAt? body.toUTF8 (offset before) (offset (before ++ q)) =
      some (wordStartBehind q) := by
  unfold wordStartsAt?
  rcases List.eq_nil_or_concat q with rfl | ⟨q, c, rfl⟩
  · rw [List.append_nil, if_pos rfl]
    rfl
  · rw [List.concat_eq_append] at hbody ⊢
    have hbody' : body.toList = (before ++ q) ++ c :: cs := by simp [hbody]
    obtain ⟨b, hb, hshow⟩ := exists_byte_behind hbody'
    have hpos := offset_pos c
    rw [List.append_assoc] at hb
    rw [if_neg (by simp; omega), if_neg (by simp; omega), hb, Option.map_some, hshow.isBlankByte]
    simp [wordStartBehind]

theorem opensAt?_offset (hbody : body.toList = before ++ (q ++ cs)) {c : Char} (hc : IsAscii c) :
    opensAt? body.toUTF8 (offset before) (offset (before ++ q)) (byte c) =
      some (opensRegion (wordStartBehind q) c) := by
  unfold opensAt? opensRegion
  rw [wordStartsAt?_offset hbody]
  simp only [byte_inj hc (show IsAscii '"' by decide), byte_inj hc (show IsAscii '\'' by decide)]
  split_ifs <;> simp_all

theorem wordFollowsAt_offset (hbody : body.toList = before ++ cs) :
    wordFollowsAt body.toUTF8 (offset before) = wordFollows cs := by
  unfold wordFollowsAt
  rw [(standsAt_offset hbody).getElem?_eq]
  cases cs with
  | nil => rfl
  | cons c cs =>
    obtain ⟨b, rest, hc, hb⟩ := exists_head_encodeChar c
    simp only [encoded_cons, hc, List.cons_append, List.head?_cons, Option.any_some, wordFollows,
      hb.isBlankByte, bne, hb.beq (show IsAscii '"' by decide),
      hb.beq (show IsAscii '\'' by decide)]

theorem afterPairAt?_offset (hbody : body.toList = before ++ cs) {c : Char} (hc : IsAscii c) :
    afterPairAt? body.toUTF8 (byte c) (offset before) = some ((afterPair c cs).map byte) := by
  have hpair : pairOccursFrom body.toUTF8 (byte c) (offset before) = Text.occursIn [c, c] cs := by
    rw [Bool.eq_iff_iff, pairOccursFrom_iff (standsAt_offset hbody), pair_infix_encoded_iff hc,
      Text.occursIn_iff]
  rw [afterPairAt?_eq, wordFollowsAt_offset hbody, hpair, afterPair]
  split_ifs <;> rfl

/-! ## In step with the cursor -/

/-- A byte beyond ASCII is passed over. -/
theorem checkedScanFrom_skip {state : Quoting Char} (hs : state.Regular) (start : Nat) {i : Nat}
    {w l : List UInt8} (hwide : ∀ b ∈ w, 128 ≤ b.toNat) (h : StandsAt body.toUTF8 i (w ++ l)) :
    checkedScanFrom body (state.map byte) start i =
      checkedScanFrom body (state.map byte) start (i + w.length) := by
  induction w generalizing i with
  | nil => rfl
  | cons b w ih =>
    have hb : 128 ≤ b.toNat := hwide b List.mem_cons_self
    have hstep : checkedScanFrom body (state.map byte) start i =
        checkedScanFrom body (state.map byte) start (i + 1) := by
      rw [checkedScanFrom_of_getElem? h.getElem?_eq, if_neg (ne_byte hb (by decide))]
      cases state with
      | outside =>
        have hopens : opensAt? body.toUTF8 start i b = some false := by
          rw [opensAt?, if_neg (ne_byte hb (by decide)), if_neg (ne_byte hb (by decide))]
        have hdollar : b ≠ byte '$' := ne_byte hb (by decide)
        simp only [Quoting.map, hopens, hdollar, false_and, Option.bind_eq_bind, Option.bind_some,
          Bool.false_eq_true, if_false]
      | quoted mark =>
        have hmark : b ≠ byte mark := ne_byte hb (IsQuote.isAscii hs)
        simp [Quoting.map, hmark]
      | doubled mark =>
        have hmark : b ≠ byte mark := ne_byte hb (IsQuote.isAscii hs)
        simp [Quoting.map, hmark]
    rw [hstep, ih (fun b hb => hwide b (List.mem_cons_of_mem _ hb)) h.tail, List.length_cons]
    congr 1
    omega

/-- The scan over bytes behind the first characters `q` of a part: in front of the next character,
or behind its first byte if that character is held. -/
def scanBehind (body : String) (before q : List Char) (state : Quoting Char) (held : Bool) :
    Option ByteScan :=
  checkedScanFrom body (state.map byte) (offset before) (offset (before ++ q) + held.toNat)

/-- All of a character beyond ASCII is passed over, and so is what a backslash left of it. -/
theorem scanBehind_wide {state : Quoting Char} (hs : state.Regular) {c : Char} {rest : List Char}
    (hbody : body.toList = before ++ (q ++ c :: rest)) (hc : ¬ IsAscii c) (held : Bool) :
    scanBehind body before q state held = scanBehind body before (q ++ [c]) state false := by
  have hstand : StandsAt body.toUTF8 (offset (before ++ q))
      (String.utf8EncodeChar c ++ encoded rest) :=
    standsAt_offset (by rw [hbody, List.append_assoc])
  obtain ⟨b, w, hw, -⟩ := exists_head_encodeChar c
  have hoff : offset (before ++ (q ++ [c])) = offset (before ++ q) + (w.length + 1) := by
    rw [offset_concat]
    simp [offset, hw]
  have hwide : ∀ d ∈ b :: w, 128 ≤ d.toNat := fun d hd => le_of_mem_encodeChar hc (hw ▸ hd)
  rw [hw] at hstand
  unfold scanBehind
  rw [hoff]
  cases held with
  | false => exact checkedScanFrom_skip hs _ hwide hstand
  | true =>
    -- A backslash took the first byte with it; the others are as far beyond ASCII.
    have h := checkedScanFrom_skip hs (offset before)
      (fun d hd => hwide d (List.mem_cons_of_mem _ hd)) (StandsAt.tail hstand)
    rw [Nat.add_assoc, Nat.add_comm 1] at h
    exact h

/-- One step of the scan over bytes in front of an ASCII character, told by characters. -/
theorem scanBehind_ascii {state : Quoting Char} (hs : state.Regular) {c : Char} {rest : List Char}
    (hbody : body.toList = before ++ (q ++ c :: rest)) (hc : IsAscii c) :
    scanBehind body before q state false =
      if c = '\\' then scanBehind body before (q ++ [c]) state true
      else
        match state with
        | .outside =>
          if opensRegion (wordStartBehind q) c then
            if rest.head? = some c then
              scanBehind body before (q ++ [c]) (afterPair c rest.tail) true
            else scanBehind body before (q ++ [c]) (.quoted c) false
          else if c = '$' ∧ rest.head? = some c then do
            let part ← cut? body (offset before) (offset (before ++ q))
            let next ← scanBehind body (before ++ (q ++ [c, c])) [] .outside false
            return { next with bounds := part :: next.bounds }
          else scanBehind body before (q ++ [c]) .outside false
        | .quoted mark =>
          scanBehind body before (q ++ [c]) (if c = mark then .outside else .quoted mark) false
        | .doubled mark =>
          if c = mark ∧ rest.head? = some c then scanBehind body before (q ++ [c]) .outside true
          else scanBehind body before (q ++ [c]) (.doubled mark) false := by
  have hstand : StandsAt body.toUTF8 (offset (before ++ q)) (byte c :: encoded rest) := by
    rw [← List.singleton_append, ← encodeChar_of_isAscii hc]
    exact standsAt_offset (by rw [hbody, List.append_assoc])
  have hpair : body.toUTF8[offset (before ++ q) + 1]? = some (byte c) ↔ rest.head? = some c := by
    rw [hstand.tail.getElem?_eq, head?_encoded_iff hc]
  have hone : offset (before ++ (q ++ [c])) = offset (before ++ q) + 1 := by
    rw [offset_concat, offset_of_isAscii hc]
  have htwo : offset (before ++ (q ++ [c, c])) = offset (before ++ q) + 2 := by
    simp [offset, encodeChar_of_isAscii hc, Nat.add_assoc]
  have heq : ∀ m, IsAscii m → (byte c = byte m ↔ c = m) := fun m hm => byte_inj hc hm
  unfold scanBehind
  rw [Bool.toNat_false, Nat.add_zero, checkedScanFrom_of_getElem? hstand.getElem?_eq, hone,
    List.append_nil, htwo, Bool.toNat_true]
  simp only [heq '\\' (by decide), heq '$' (by decide), hpair]
  cases state with
  | outside =>
    have hafter : rest.head? = some c → afterPairAt? body.toUTF8 (byte c)
        (offset (before ++ q) + 2) = some ((afterPair c rest.tail).map byte) := by
      intro hdouble
      obtain ⟨rest, rfl⟩ := List.head?_eq_some_iff.1 hdouble
      rw [← htwo]
      exact afterPairAt?_offset (by simp [hbody]) hc
    simp only [Quoting.map, opensAt?_offset hbody hc, Option.bind_eq_bind, Option.bind_some]
    split_ifs with _ _ hdouble
    · rfl
    · rw [hafter hdouble]
      rfl
    · rfl
    · rfl
    · rfl
  | quoted mark =>
    simp only [Quoting.map, heq mark (IsQuote.isAscii hs)]
    split_ifs <;> rfl
  | doubled mark =>
    simp only [Quoting.map, heq mark (IsQuote.isAscii hs)]

/-- The scan over bytes goes over a character as the cursor does. -/
theorem scanBehind_next {s : Cursor} (hs : s.quoting.Regular) {c : Char} {rest : List Char}
    (hbody : body.toList = before ++ (q ++ c :: rest)) (hword : s.wordStart = wordStartBehind q)
    (hsep : ¬ s.AtSeparator (c :: rest)) :
    scanBehind body before q s.quoting s.held =
      scanBehind body before (q ++ [c]) (s.next c rest).quoting (s.next c rest).held := by
  by_cases hc : IsAscii c
  · obtain ⟨state, wordStart, held⟩ := s
    dsimp only at hs hword ⊢
    subst hword
    cases held with
    | true =>
      -- The one byte that was stepped over is all of the character.
      unfold scanBehind next
      rw [offset_concat, offset_of_isAscii hc]
      rfl
    | false =>
      rw [scanBehind_ascii hs hbody hc]
      by_cases hback : c = '\\'
      · simp [next, hback]
      rw [if_neg hback]
      cases state with
      | outside =>
        have hdollar : ¬ (c = '$' ∧ rest.head? = some c) := by
          rintro ⟨rfl, hdouble⟩
          obtain ⟨rest, rfl⟩ := List.head?_eq_some_iff.1 hdouble
          exact hsep ⟨rfl, rfl, rest, rfl⟩
        simp only [hdollar, if_false]
        split_ifs with hopen hdouble <;> simp [next, afterSingle, *]
      | quoted mark => simp [next, hback, afterSingle]
      | doubled mark =>
        by_cases hclose : mark = c ∧ rest.head? = some c
        · simp [next, hback, hclose]
        · have hclose' : ¬ (c = mark ∧ rest.head? = some c) := fun h => hclose ⟨h.1.symm, h.2⟩
          simp [next, hback, hclose, hclose', afterSingle]
  · have hback : c ≠ '\\' := fun h => hc (h ▸ by decide)
    rw [next_of_ne hs hback fun h => hc h.isAscii]
    exact scanBehind_wide hs hbody hc s.held

theorem scanBehind_separator {rest : List Char}
    (hbody : body.toList = before ++ (q ++ '$' :: '$' :: rest)) :
    scanBehind body before q .outside false = do
      let part ← cut? body (offset before) (offset (before ++ q))
      let next ← scanBehind body (before ++ (q ++ ['$', '$'])) [] .outside false
      return { next with bounds := part :: next.bounds } := by
  have hs : Quoting.Regular .outside := trivial
  rw [scanBehind_ascii hs hbody (by decide)]
  simp [opensRegion]

theorem wordStart_next (s : Cursor) (c : Char) (rest : List Char) :
    (s.next c rest).wordStart = isAsciiBlank c := by
  unfold next
  split_ifs <;> rfl

theorem scanBehind_advance {ahead p : List Char} {s t : Cursor} (h : Advance ahead s p t)
    (hs : s.quoting.Regular) (hbody : body.toList = before ++ (q ++ (p ++ ahead)))
    (hword : s.wordStart = wordStartBehind q) :
    scanBehind body before q s.quoting s.held =
      scanBehind body before (q ++ p) t.quoting t.held := by
  induction h generalizing q with
  | nil s => rw [List.append_nil]
  | @cons s t c p hsep _ ih =>
    -- Behind a character both tell a word start by that character alone.
    have hword' : (s.next c (p ++ ahead)).wordStart = wordStartBehind (q ++ [c]) := by
      rw [wordStart_next]
      simp [wordStartBehind]
    have h := ih (regular_next hs c (p ++ ahead)) (by simp [hbody]) hword'
    rw [List.append_assoc] at h
    exact (scanBehind_next hs hbody hword hsep).trans h

/-- The offsets are those of a part in its place. -/
def LiesAt (body : String) (p : List Char) (bound : Nat × Nat) : Prop :=
  ∃ u v, body.toList = u ++ (p ++ v) ∧ bound = (offset u, offset u + offset p)

theorem LiesAt.maySlice {p : List Char} {bound : Nat × Nat} (h : LiesAt body p bound) :
    MaySlice body bound.1 bound.2 := by
  obtain ⟨u, v, hbody, rfl⟩ := h
  refine ⟨Nat.le_add_right _ _, isValid_offset hbody, ?_⟩
  rw [← offset_append]
  exact isValid_offset (hbody.trans (List.append_assoc ..).symm)

theorem LiesAt.extract_eq {p : List Char} {bound : Nat × Nat} (h : LiesAt body p bound) :
    body.toUTF8.extract bound.1 bound.2 = (String.ofList p).toUTF8 := by
  obtain ⟨u, v, hbody, rfl⟩ := h
  exact extract_toUTF8 hbody

theorem cut?_offset {p after : List Char} (hbody : body.toList = before ++ (p ++ after)) :
    cut? body (offset before) (offset (before ++ p)) =
      some (offset before, offset before + offset p) := by
  have hlies : LiesAt body p (offset before, offset before + offset p) :=
    ⟨before, after, hbody, rfl⟩
  rw [offset_append]
  exact if_pos hlies.maySlice

example : cut? "é$$" 0 2 = some (0, 2) ∧ cut? "é$$" 0 1 = none := by decide

theorem offset_separator (before p : List Char) :
    offset (before ++ (p ++ ['$', '$'])) = offset before + offset p + 2 := by
  rw [offset_append, offset_append, Nat.add_assoc]
  rfl

/-- The offsets of parts with separators between them. -/
def boundsFrom (first : Nat) : List (List Char) → List (Nat × Nat)
  | [] => []
  | p :: ps => (first, first + offset p) :: boundsFrom (first + offset p + 2) ps

theorem scanBehind_of_cuts {ps : List (List Char)} {unterminated : Bool}
    (h : Cuts cs ps unterminated) (hbody : body.toList = before ++ cs) :
    scanBehind body before [] .outside false =
      some ⟨boundsFrom (offset before) ps, unterminated⟩ := by
  induction h generalizing before with
  | @last cs t h =>
    -- If the last character is a backslash, the scan stops one byte behind the end.
    have hbody' : body.toList = before ++ (cs ++ []) := by rw [hbody, List.append_nil]
    have hsize : body.toUTF8.size = offset (before ++ cs) := by rw [size_toUTF8, hbody]
    refine (scanBehind_advance h trivial (q := []) hbody' rfl).trans ?_
    unfold scanBehind
    rw [List.nil_append, checkedScanFrom_of_size_le (by rw [hsize]; exact Nat.le_add_right _ _),
      hsize, cut?_offset hbody', Quoting.map_bne_outside]
    rfl
  | @more p q ps unterminated t h hheld hout _ ih =>
    have hrest : body.toList = (before ++ (p ++ ['$', '$'])) ++ q := by simp [hbody]
    refine (scanBehind_advance h trivial (q := []) hbody rfl).trans ?_
    rw [hheld, hout, List.nil_append, scanBehind_separator hbody, cut?_offset hbody, ih hrest,
      offset_separator]
    rfl

/-! ## Parts -/

theorem liesAt_of_cuts {ps : List (List Char)} {unterminated : Bool}
    (h : Cuts cs ps unterminated) (hbody : body.toList = before ++ cs) :
    List.Forall₂ (LiesAt body) ps (boundsFrom (offset before) ps) := by
  induction h generalizing before with
  | last h => exact .cons ⟨before, [], by rw [hbody, List.append_nil], rfl⟩ .nil
  | @more p q ps unterminated t h hheld hout _ ih =>
    refine .cons ⟨before, _, hbody, rfl⟩ ?_
    rw [← offset_separator]
    exact ih (by simp [hbody])

theorem parts_of_liesAt {ps : List (List Char)} {bounds : List (Nat × Nat)}
    (h : List.Forall₂ (LiesAt body) ps bounds) (unterminated : Bool) :
    ByteScan.parts ⟨bounds, unterminated⟩ body.toUTF8 =
      ps.map fun p => (String.ofList p).toUTF8 := by
  induction h with
  | nil => rfl
  | cons hp _ ih => exact congrArg₂ List.cons hp.extract_eq ih

end

theorem Cuts.ne_nil {cs : List Char} {ps : List (List Char)} {unterminated : Bool}
    (h : Cuts cs ps unterminated) : ps ≠ [] := by
  cases h <;> exact List.cons_ne_nil _ _

theorem encoded_of_cuts {cs : List Char} {ps : List (List Char)} {unterminated : Bool}
    (h : Cuts cs ps unterminated) :
    [byte '$', byte '$'].intercalate (ps.map encoded) = encoded cs := by
  induction h with
  | last h => exact List.intercalate_singleton
  | @more p q ps unterminated t h hheld hout hrest ih =>
    have hne : ps.map encoded ≠ [] := fun h => hrest.ne_nil (List.map_eq_nil_iff.1 h)
    rw [List.map_cons, List.intercalate_cons_of_ne_nil hne, ih, encoded_append, List.append_assoc]
    rfl

/-- What a scan of an encoded body has to be. -/
structure ScansExactly (body : String) (s : ByteScan) : Prop where
  /-- No byte is read that is not there, and no part is cut inside of a character. -/
  checked : checkedScan body = some s
  boundaries : ∀ b ∈ s.bounds, MaySlice body b.1 b.2
  /-- With two dollars between each two, the parts are the body again. -/
  joined : [byte '$', byte '$'].intercalate ((s.parts body.toUTF8).map (·.data.toList)) =
    body.toUTF8.data.toList
  separators : s.separators + 1 = (s.parts body.toUTF8).length
  /-- The parts are those of the scan by characters. -/
  parts : s.parts body.toUTF8 = (scan body).parts.map fun p => (String.ofList p).toUTF8
  unterminated : s.unterminated = (scan body).unterminated

/-- The scan over bytes is the scan over characters: it reads and cuts only where it may, and loses
nothing. -/
theorem scansExactly_scanBytes (body : String) : ScansExactly body (scanBytes body.toUTF8) := by
  have hcuts : Cuts body.toList (scan body).parts (scan body).unterminated :=
    cuts_scanFrom body.toList
  have hbody : body.toList = [] ++ body.toList := rfl
  have hchecked : checkedScan body =
      some ⟨boundsFrom 0 (scan body).parts, (scan body).unterminated⟩ :=
    scanBehind_of_cuts hcuts hbody
  have hlies : List.Forall₂ (LiesAt body) (scan body).parts (boundsFrom 0 (scan body).parts) :=
    liesAt_of_cuts hcuts hbody
  have hbytes : ∀ p, (String.ofList p).toUTF8.data.toList = encoded p := fun p => by
    rw [toList_data_toUTF8, String.toList_ofList]
  have hscan : scanBytes body.toUTF8 = ⟨boundsFrom 0 (scan body).parts, (scan body).unterminated⟩ :=
    scanBytesFrom_of_checked hchecked
  rw [hscan]
  have hparts := parts_of_liesAt hlies (scan body).unterminated
  exact
    { checked := hchecked
      boundaries := forall_of_forall₂ hlies fun _ _ => LiesAt.maySlice
      joined := by
        rw [hparts, toList_data_toUTF8, List.map_map, ← encoded_of_cuts hcuts]
        simp only [Function.comp_def, hbytes]
      separators := by
        have hpos : 0 < (boundsFrom 0 (scan body).parts).length := by
          rw [← hlies.length_eq]
          exact List.length_pos_of_ne_nil hcuts.ne_nil
        rw [hparts, List.length_map, hlies.length_eq]
        exact Nat.sub_add_cancel hpos
      parts := hparts
      unterminated := rfl }

end Keybinds.Chain
