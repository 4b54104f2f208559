import Keybinds.Proofs.BindFile.Joined
import Keybinds.Proofs.Profile.Import

/-!
# Importing one text after another

An import of a text enters its declarations in turn: gathering them first, with the last one of each
name in the place of the first, comes to the same as entering them one by one, since an entry that
is there keeps its place. Two texts that are imported one after another thus leave the same keys,
aliases and flags as one text in which the second stands behind the first
(`importFile_append_newline`).
-/

namespace Keybinds.Profile

open BindFile (Options declarationsIn entered flagBehind)

variable (p : Profile) (environment : String) (options : Options) (text : String)

/-! ## Imports as entering of declarations -/

theorem isEntering_bindIn (environment : String) :
    Dict.IsEntering (bindIn environment) fun builds key =>
      key ∈ ((builds.get? environment).getD ∅).keys :=
  Dict.IsEntering.inner (Dict.isEntering_alter (f := fun chain _ => chain) fun _ _ _ => rfl)
    environment

/-- The alias of an entry with its chain. -/
def nameAlias (aliases : Dict Alias) (e : String × List String) : Dict Alias :=
  aliases.alter e.1 (withChain e.2)

theorem isEntering_nameAlias : Dict.IsEntering nameAlias fun aliases name => name ∈ aliases.keys :=
  Dict.isEntering_alter fun _ _ _ => rfl

theorem builds_importFile_read (now : String) :
    (p.importFile environment (.read options text) now).builds =
      (entered options .keys (declarationsIn options.rules text)).foldl (bindIn environment)
        p.builds := by
  have hkeys : (BindFile.read options text).keys = Dict.ofList _ :=
    BindFile.declared_read options text .keys
  rw [builds_importFile, hkeys]
  exact (isEntering_bindIn environment).foldl_ofList p.builds _

theorem aliases_importFile_read (now : String) :
    (p.importFile environment (.read options text) now).aliases =
      (entered options .aliases (declarationsIn options.rules text)).foldl nameAlias p.aliases := by
  have haliases : (BindFile.read options text).aliases = Dict.ofList _ :=
    BindFile.declared_read options text .aliases
  rw [aliases_importFile, haliases]
  exact isEntering_nameAlias.foldl_ofList p.aliases _

theorem isKeyStabilized_importFile_read (now key : String) :
    (p.importFile environment (.read options text) now).isKeyStabilized environment key =
      flagBehind options .keys (declarationsIn options.rules text) key
        (p.isKeyStabilized environment key) :=
  (isKeyStabilized_importFile p environment _ now key).trans
    (BindFile.ite_contains_read options text .keys key _)

theorem isAliasStabilized_importFile_read (now name : String) :
    (p.importFile environment (.read options text) now).isAliasStabilized name =
      flagBehind options .aliases (declarationsIn options.rules text) name
        (p.isAliasStabilized name) :=
  (isAliasStabilized_importFile p environment _ now name).trans
    (BindFile.ite_contains_read options text .aliases name _)

/-! ## Two imports -/

/-- The same keys in all environments and the same aliases, each in the same order, and the same
answers about flags. -/
structure SameBindings (p q : Profile) : Prop where
  builds : p.builds = q.builds
  aliases : p.aliases = q.aliases
  keyFlags : ∀ environment key,
    p.isKeyStabilized environment key = q.isKeyStabilized environment key
  aliasFlags : ∀ name, p.isAliasStabilized name = q.isAliasStabilized name

/-- To import two texts in turn is to import the second behind the first, on a line of its own,
unless the second starts with a byte order mark. -/
theorem importFile_append_newline (a : String) {b : String} (hb : b.toList.head? ≠ some '\uFEFF')
    (now₁ now₂ now : String) :
    SameBindings
      ((p.importFile environment (.read options a) now₁).importFile environment
        (.read options b) now₂)
      (p.importFile environment (.read options (a ++ "\n" ++ b)) now) where
  builds := by
    rw [builds_importFile_read, builds_importFile_read, builds_importFile_read,
      BindFile.declarationsIn_append_newline a hb, BindFile.entered_append, List.foldl_append]
  aliases := by
    rw [aliases_importFile_read, aliases_importFile_read, aliases_importFile_read,
      BindFile.declarationsIn_append_newline a hb, BindFile.entered_append, List.foldl_append]
  keyFlags environment' key := by
    by_cases h : environment' = environment
    · subst h
      rw [isKeyStabilized_importFile_read, isKeyStabilized_importFile_read,
        isKeyStabilized_importFile_read, BindFile.declarationsIn_append_newline a hb,
        BindFile.flagBehind_append]
    · rw [isKeyStabilized_importFile_of_ne _ _ _ h, isKeyStabilized_importFile_of_ne _ _ _ h,
        isKeyStabilized_importFile_of_ne _ _ _ h]
  aliasFlags name := by
    rw [isAliasStabilized_importFile_read, isAliasStabilized_importFile_read,
      isAliasStabilized_importFile_read, BindFile.declarationsIn_append_newline a hb,
      BindFile.flagBehind_append]

/-- The key is bound and flagged before, then bound mirrored in the first text and plain in the
second; the first text ends in a carriage return, the second names an alias that is there. -/
theorem importFile_append_newline_redeclared :
    let options : Options := { detectMirrors := true }
    let p := (new "p" "1").importFile "ground"
      (.read options "F1 \"X $$ X\"\nalias b \"Y $$ Y\"") "2"
    let a := "F1 \"A $$ B $$ B $$ A\"\r\nF2 \"C $$ C\"\nalias c \"D\"\r"
    let b := "F1 \"E\"\nalias b \"F\"\nF3 \"G\""
    let twice := (p.importFile "ground" (.read options a) "3").importFile "ground"
      (.read options b) "4"
    b.toList.head? ≠ some '\uFEFF' ∧
      SameBindings twice (p.importFile "ground" (.read options (a ++ "\n" ++ b)) "5") ∧
      (p.importFile "ground" (.read options a) "3").isKeyStabilized "ground" "F1" = true ∧
      twice.isKeyStabilized "ground" "F1" = false := by
  intro options p a b twice
  have hb : b.toList.head? ≠ some '\uFEFF' := by decide +kernel
  exact ⟨hb, importFile_append_newline p "ground" options a hb "3" "4" "5", by decide +kernel,
    by decide +kernel⟩

end Keybinds.Profile
