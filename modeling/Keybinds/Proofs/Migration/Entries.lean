import Keybinds.Proofs.Migration.MalformedItems

/-!
# The entries of a tally

A tally tells the entries of a document apart by a text for each: the environment, a slash and the
key, or a mark and the name of the alias. Where the names of environments hold no slash and do not
start with the mark, these texts are different, so the tally looks at each entry of the document
once, in order (`entries_eq`), and finds it again in a later one by its owner (`get?_entries`).
-/

namespace Keybinds.Migration

open Stored (Commands Document)

/-! ## Ids -/

/-- The name of an environment that keeps the ids of its keys apart from all others. -/
def IsPlainName (environment : String) : Prop :=
  '/' ∉ environment.toList ∧ ¬ aliasMark.toList <+: environment.toList

instance : DecidablePred IsPlainName := fun _ => inferInstanceAs (Decidable (_ ∧ _))

theorem toList_keyId (environment name : String) :
    (keyId environment name).toList = environment.toList ++ '/' :: name.toList := by
  unfold keyId
  rw [String.toList_append, String.toList_append, List.append_assoc]
  rfl

/-- The environment stands in front of the first slash. -/
theorem takeWhile_keyId {environment : String} (h : IsPlainName environment) (name : String) :
    (keyId environment name).toList.takeWhile (· != '/') = environment.toList := by
  have hall : ∀ c ∈ environment.toList, (c != '/') = true := by
    intro c hc
    rw [bne_iff_ne]
    rintro rfl
    exact h.1 hc
  rw [toList_keyId, List.takeWhile_append_of_pos hall, List.takeWhile_cons_of_neg (by simp),
    List.append_nil]

theorem keyId_ne_mark {environment : String} (h : IsPlainName environment) (key name : String) :
    keyId environment key ≠ aliasMark ++ name := by
  intro heq
  have hlist := congrArg String.toList heq
  rw [toList_keyId, String.toList_append, List.append_eq_append_iff] at hlist
  obtain ⟨rest, hmark, hrest⟩ | ⟨rest, henvironment, -⟩ := hlist
  · cases rest with
    | nil => exact h.2 ⟨[], by rw [hmark, List.append_nil, List.append_nil]⟩
    | cons c rest =>
      obtain rfl : '/' = c := (List.cons.inj hrest).1
      have hslash : '/' ∈ aliasMark.toList := hmark ▸ by simp
      exact absurd hslash (by decide)
  · exact h.2 ⟨rest, henvironment.symm⟩

namespace Owner

/-- The text that a tally uses for the entry. -/
def entryId : Owner → String
  | key environment name => keyId environment name
  | aliasName name => aliasMark ++ name

def IsPlain : Owner → Prop
  | key environment _ => IsPlainName environment
  | aliasName _ => True

theorem entryId_inj {o o' : Owner} (ho : o.IsPlain) (ho' : o'.IsPlain)
    (h : o.entryId = o'.entryId) : o = o' := by
  cases o with
  | key environment name =>
    cases o' with
    | key environment' name' =>
      have h : keyId environment name = keyId environment' name' := h
      obtain rfl : environment = environment' := by
        rw [← String.toList_inj, ← takeWhile_keyId ho name, ← takeWhile_keyId ho' name', h]
      rw [← String.toList_inj, toList_keyId, toList_keyId, List.append_right_inj,
        List.cons_inj_right, String.toList_inj] at h
      rw [h]
    | aliasName name' => exact absurd h (keyId_ne_mark ho name name')
  | aliasName name =>
    cases o' with
    | key environment' name' => exact absurd h.symm (keyId_ne_mark ho' name' name)
    | aliasName name' =>
      have h : aliasMark ++ name = aliasMark ++ name' := h
      rw [← String.toList_inj, String.toList_append, String.toList_append, List.append_right_inj,
        String.toList_inj] at h
      rw [h]

end Owner

/-! ## Entries -/

/-- The entries of the builds. -/
def builtEntries (d : Document) : List (Owner × Entry) :=
  d.builds.entries.flatMap fun build =>
    build.2.keys.entries.map fun e => (.key build.1 e.1, ⟨e.2.isCanonical, some e.2⟩)

/-- The top-level keys as entries of the environment that they move to. They never count as
canonical. -/
def topEntries (d : Document) : List (Owner × Entry) :=
  (d.keys.getD ∅).entries.map fun e => (.key (legacyEnvironment d) e.1, ⟨false, some e.2⟩)

def aliasEntries (d : Document) : List (Owner × Entry) :=
  d.aliases.entries.map fun e => (.aliasName e.1, ⟨e.2.isCanonical, e.2.commands?⟩)

/-- The keys of builds, and behind them the top-level keys that are not bound in the build that they
move to. -/
def keyEntries (d : Document) : List (Owner × Entry) :=
  builtEntries d ++ (topEntries d).filter fun e => e.1 ∉ (builtEntries d).map Prod.fst

/-- The entries of a document by what they belong to. -/
def storedEntries (d : Document) : List (Owner × Entry) :=
  keyEntries d ++ aliasEntries d

variable {d : Document}

theorem nodup_builtEntries (d : Document) : ((builtEntries d).map Prod.fst).Nodup := by
  unfold builtEntries
  rw [List.map_flatMap]
  refine List.nodup_flatMap.2 ⟨fun build _ => ?_, ?_⟩
  · rw [List.map_map]
    show (build.2.keys.entries.map (Owner.key build.1 ∘ Prod.fst)).Nodup
    rw [← List.map_map]
    exact build.2.keys.nodup.map fun _ _ h => (Owner.key.inj h).2
  · refine (List.pairwise_map.1 d.builds.nodup).imp fun {build build'} hne o ho ho' => hne ?_
    obtain ⟨x, hx, rfl⟩ := List.mem_map.1 ho
    obtain ⟨e, -, rfl⟩ := List.mem_map.1 hx
    obtain ⟨y, hy, heq⟩ := List.mem_map.1 ho'
    obtain ⟨e', -, rfl⟩ := List.mem_map.1 hy
    exact (Owner.key.inj heq).1.symm

theorem nodup_topEntries (d : Document) : ((topEntries d).map Prod.fst).Nodup := by
  unfold topEntries
  rw [List.map_map]
  show ((d.keys.getD ∅).entries.map (Owner.key (legacyEnvironment d) ∘ Prod.fst)).Nodup
  rw [← List.map_map]
  exact (d.keys.getD ∅).nodup.map fun _ _ h => (Owner.key.inj h).2

theorem nodup_aliasEntries (d : Document) : ((aliasEntries d).map Prod.fst).Nodup := by
  unfold aliasEntries
  rw [List.map_map]
  show (d.aliases.entries.map (Owner.aliasName ∘ Prod.fst)).Nodup
  rw [← List.map_map]
  exact d.aliases.nodup.map fun _ _ h => Owner.aliasName.inj h

/-! ### Plain names -/

/-- The names of the environments keep the ids of all entries apart. -/
def NamesPlain (d : Document) : Prop :=
  ∀ environment ∈ boundEnvironments d, IsPlainName environment

instance (d : Document) : Decidable (NamesPlain d) :=
  inferInstanceAs (Decidable (∀ environment ∈ boundEnvironments d, IsPlainName environment))

theorem NamesPlain.builtEntries (h : NamesPlain d) : ∀ e ∈ builtEntries d, e.1.IsPlain := by
  intro e he
  obtain ⟨build, hbuild, he⟩ := List.mem_flatMap.1 he
  obtain ⟨e, -, rfl⟩ := List.mem_map.1 he
  exact h build.1 (List.mem_append_left _ (List.mem_map_of_mem hbuild))

theorem NamesPlain.topEntries (h : NamesPlain d) : ∀ e ∈ topEntries d, e.1.IsPlain := by
  intro e he
  obtain ⟨bound, hbound, rfl⟩ := List.mem_map.1 he
  refine h (legacyEnvironment d) ?_
  by_cases hmem : legacyEnvironment d ∈ d.builds.keys
  · exact List.mem_append_left _ hmem
  · have hsome : d.keys.isSome = true := by
      cases hkeys : d.keys with
      | none =>
        rw [hkeys] at hbound
        exact absurd hbound List.not_mem_nil
      | some keys => rfl
    refine List.mem_append_right _ ?_
    rw [if_pos ⟨hsome, hmem⟩]
    exact List.mem_singleton_self _

theorem isPlain_of_mem_aliasEntries : ∀ e ∈ aliasEntries d, e.1.IsPlain := by
  intro e he
  obtain ⟨e, -, rfl⟩ := List.mem_map.1 he
  exact trivial

theorem NamesPlain.keyEntries (h : NamesPlain d) : ∀ e ∈ keyEntries d, e.1.IsPlain := by
  intro e he
  rcases List.mem_append.1 he with he | he
  · exact h.builtEntries e he
  · exact h.topEntries e (List.mem_filter.1 he).1

theorem NamesPlain.storedEntries (h : NamesPlain d) : ∀ e ∈ storedEntries d, e.1.IsPlain :=
  List.forall_mem_append.2 ⟨h.keyEntries, isPlain_of_mem_aliasEntries⟩

/-! ### Entries by id -/

/-- Entries with the ids of their owners. -/
def withIds (es : List (Owner × Entry)) : List (String × Entry) :=
  es.map fun e => (e.1.entryId, e.2)

theorem withIds_append (es es' : List (Owner × Entry)) :
    withIds (es ++ es') = withIds es ++ withIds es' :=
  List.map_append

theorem entryId_mem_withIds_iff {es : List (Owner × Entry)} (hes : ∀ e ∈ es, e.1.IsPlain)
    {o : Owner} (ho : o.IsPlain) :
    o.entryId ∈ (withIds es).map Prod.fst ↔ o ∈ es.map Prod.fst := by
  unfold withIds
  rw [List.map_map, List.mem_map, List.mem_map]
  refine exists_congr fun e => and_congr_right fun he => ?_
  exact ⟨fun heq => Owner.entryId_inj (hes e he) ho heq, fun heq => congrArg Owner.entryId heq⟩

theorem nodup_withIds {es : List (Owner × Entry)} (hes : ∀ e ∈ es, e.1.IsPlain)
    (hnodup : (es.map Prod.fst).Nodup) : ((withIds es).map Prod.fst).Nodup := by
  unfold withIds
  rw [List.map_map]
  show (es.map (Owner.entryId ∘ Prod.fst)).Nodup
  rw [← List.map_map]
  refine List.Nodup.map_on (fun o ho o' ho' heq => ?_) hnodup
  obtain ⟨e, he, rfl⟩ := List.mem_map.1 ho
  obtain ⟨e', he', rfl⟩ := List.mem_map.1 ho'
  exact Owner.entryId_inj (hes e he) (hes e' he') heq

theorem lookup_withIds {es : List (Owner × Entry)} (hes : ∀ e ∈ es, e.1.IsPlain) {o : Owner}
    (ho : o.IsPlain) : (withIds es).lookup o.entryId = es.lookup o := by
  induction es with
  | nil => rfl
  | cons e es ih =>
    obtain ⟨o', entry⟩ := e
    rw [List.forall_mem_cons] at hes
    show List.lookup _ ((o'.entryId, entry) :: withIds es) = _
    rw [Dict.lookup_cons_eq_ite, List.lookup_cons, ih hes.2]
    by_cases heq : o = o'
    · subst heq
      simp
    · have hne : o.entryId ≠ o'.entryId := fun h => heq (Owner.entryId_inj ho hes.1 h)
      simp [hne, beq_eq_false_iff_ne.2 heq]

/-- Entering entries with new ids appends them in order. -/
theorem entries_foldl_insert {found : Dict Entry} {es : List (Owner × Entry)}
    (hes : ∀ e ∈ es, e.1.IsPlain) (hnodup : (es.map Prod.fst).Nodup)
    (hnew : ∀ e ∈ withIds es, e.1 ∉ found.keys) :
    ((withIds es).foldl (fun found e => found.insert e.1 e.2) found).entries =
      found.entries ++ withIds es :=
  (Dict.entries_foldl_alter found (fun entry _ => entry) (nodup_withIds hes hnodup) hnew).trans
    (congrArg _ (List.map_id _))

theorem entries_eq_foldl (d : Document) :
    entries d = (withIds (aliasEntries d)).foldl (fun found e => found.insert e.1 e.2)
      ((withIds (topEntries d)).foldl (fun found e => found.insertIfNew e.1 e.2)
        ((withIds (builtEntries d)).foldl (fun found e => found.insert e.1 e.2) ∅)) := by
  unfold withIds builtEntries topEntries aliasEntries
  simp only [List.foldl_map, List.foldl_flatMap]
  rfl

theorem owner_of_mem_keyEntries {e : Owner × Entry} (he : e ∈ keyEntries d) :
    ∃ environment key, e.1 = .key environment key := by
  rcases List.mem_append.1 he with he | he
  · obtain ⟨build, -, he⟩ := List.mem_flatMap.1 he
    obtain ⟨bound, -, rfl⟩ := List.mem_map.1 he
    exact ⟨build.1, bound.1, rfl⟩
  · obtain ⟨bound, -, rfl⟩ := List.mem_map.1 (List.mem_filter.1 he).1
    exact ⟨legacyEnvironment d, bound.1, rfl⟩

/-- A tally looks at the entries of the document in order. -/
theorem entries_eq (h : NamesPlain d) : (entries d).entries = withIds (storedEntries d) := by
  let built : Dict Entry :=
    (withIds (builtEntries d)).foldl (fun found e => found.insert e.1 e.2) ∅
  let lifted := (withIds (topEntries d)).foldl (fun found e => found.insertIfNew e.1 e.2) built
  have hbuilt : built.entries = withIds (builtEntries d) :=
    entries_foldl_insert h.builtEntries (nodup_builtEntries d) fun _ _ => List.not_mem_nil
  have hlifted : lifted.entries = withIds (keyEntries d) := by
    refine (Dict.entries_foldl_insertIfNew built
      (nodup_withIds h.topEntries (nodup_topEntries d))).trans ?_
    unfold keyEntries
    rw [hbuilt, withIds_append]
    congr 1
    unfold withIds
    rw [List.filter_map]
    refine congrArg _ (List.filter_congr fun e he => ?_)
    have hmem : e.1.entryId ∈ built.keys ↔ e.1 ∈ (builtEntries d).map Prod.fst := by
      unfold Dict.keys
      rw [hbuilt]
      exact entryId_mem_withIds_iff h.builtEntries (h.topEntries e he)
    simp only [Function.comp_apply, hmem]
  have hnew : ∀ e ∈ withIds (aliasEntries d), e.1 ∉ lifted.keys := by
    intro _ hid hmem
    obtain ⟨e, he, rfl⟩ := List.mem_map.1 hid
    unfold Dict.keys at hmem
    rw [hlifted, entryId_mem_withIds_iff h.keyEntries (isPlain_of_mem_aliasEntries e he)] at hmem
    obtain ⟨e', he', heq⟩ := List.mem_map.1 hmem
    obtain ⟨environment, key, hkey⟩ := owner_of_mem_keyEntries he'
    obtain ⟨a, -, rfl⟩ := List.mem_map.1 he
    rw [hkey] at heq
    cases heq
  rw [entries_eq_foldl,
    entries_foldl_insert isPlain_of_mem_aliasEntries (nodup_aliasEntries d) hnew, hlifted]
  exact (withIds_append _ _).symm

/-- A tally finds an entry by its owner. -/
theorem get?_entries (h : NamesPlain d) {o : Owner} (ho : o.IsPlain) :
    (entries d).get? o.entryId = (storedEntries d).lookup o := by
  unfold Dict.get?
  rw [entries_eq h, lookup_withIds h.storedEntries ho]

end Keybinds.Migration
