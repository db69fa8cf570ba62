import Formwright.Proofs.Manifest.Reading
import Formwright.Proofs.Manifest.Starter
import Formwright.Proofs.Text.Ascii
import Formwright.Workspace.Inputs
import Mathlib.Data.List.Forall2

/-!
Markup and scripts, told by their extensions. An accepted manifest lists no extension for both, so
it does not matter for which of the two one looks first, in which order the extensions are listed,
and in which case they are written.
-/

namespace Formwright.Manifest

def SpelledAlike (first second : String) : Prop :=
  List.Forall₂ Text.SameLetter first.toList second.toList

theorem spelledAlike_iff {first second : String} :
    SpelledAlike first second ↔
      first.toList.map Char.toLower = second.toList.map Char.toLower := by
  rw [← List.forall₂_eq_eq_eq, List.forall₂_map_left_iff, List.forall₂_map_right_iff, SpelledAlike]
  simp only [Text.toLower_eq_iff]

theorem sameExtension_iff {first second : String} :
    sameExtension first second = true ↔ SpelledAlike first second := by
  rw [sameExtension, beq_iff_eq, spelledAlike_iff]

theorem sameExtension_congr {first second : String} (alike : SpelledAlike first second)
    (extension : String) : sameExtension first extension = sameExtension second extension := by
  rw [sameExtension, sameExtension, spelledAlike_iff.mp alike]

theorem listsExtension_iff {extensions : List String} {extension : String} :
    listsExtension extensions extension = true ↔
      ∃ known ∈ extensions, SpelledAlike known extension := by
  simp only [listsExtension, List.any_eq_true, sameExtension_iff]

def Respelled (first second : List String) : Prop :=
  ∃ reordered, first.Perm reordered ∧ List.Forall₂ SpelledAlike reordered second

theorem listsExtension_respelled {first second : List String} (respelled : Respelled first second)
    (extension : String) : listsExtension first extension = listsExtension second extension := by
  obtain ⟨reordered, permuted, alike⟩ := respelled
  rw [listsExtension, permuted.any_eq]
  show listsExtension reordered extension = _
  clear permuted
  induction alike with
  | nil => rfl
  | cons head _ ih =>
    rw [listsExtension, listsExtension, List.any_cons, List.any_cons,
      sameExtension_congr head extension]
    exact congrArg _ ih

namespace Input

variable {input other : Input}

def kindByScripts (input : Input) (path : Path) : Option InputKind :=
  match path.extension? with
  | none => none
  | some extension =>
    if listsExtension input.scriptExtensions extension then some .script
    else if listsExtension input.markupExtensions extension then some .markup
    else none

def Ends (extensions : List String) (path : Path) : Prop :=
  ∃ extension, path.extension? = some extension ∧
    ∃ known ∈ extensions, SpelledAlike known extension

theorem ends_iff {extensions : List String} {path : Path} :
    Ends extensions path ↔
      ∃ extension, path.extension? = some extension ∧ listsExtension extensions extension = true := by
  simp only [Ends, listsExtension_iff]

def Disjoint (input : Input) : Prop :=
  ∀ extension ∈ input.markupExtensions, listsExtension input.scriptExtensions extension = false

theorem Disjoint.not_both (apart : input.Disjoint) {extension : String}
    (markup : listsExtension input.markupExtensions extension = true) :
    listsExtension input.scriptExtensions extension = false := by
  obtain ⟨known, listed, alike⟩ := listsExtension_iff.mp markup
  rw [← Bool.not_eq_true]
  intro script
  obtain ⟨other, among, same⟩ := listsExtension_iff.mp script
  -- one spelling of the extension is listed for markup and one for scripts, so they are alike
  have both : listsExtension input.scriptExtensions known = true :=
    listsExtension_iff.mpr ⟨other, among,
      spelledAlike_iff.mpr ((spelledAlike_iff.mp same).trans (spelledAlike_iff.mp alike).symm)⟩
  rw [apart known listed] at both
  cases both

theorem kindOf_eq_markup {path : Path} :
    input.kindOf path = some .markup ↔ Ends input.markupExtensions path := by
  rw [ends_iff, kindOf]
  cases path.extension? with
  | none => simp
  | some extension => cases listsExtension input.markupExtensions extension <;> simp

theorem Disjoint.kindOf_eq_script (apart : input.Disjoint) {path : Path} :
    input.kindOf path = some .script ↔ Ends input.scriptExtensions path := by
  rw [ends_iff, kindOf]
  cases path.extension? with
  | none => simp
  | some extension =>
    cases markup : listsExtension input.markupExtensions extension with
    | true => simp [markup, apart.not_both markup]
    | false => simp [markup]

theorem Disjoint.kindByScripts_eq (apart : input.Disjoint) (path : Path) :
    input.kindByScripts path = input.kindOf path := by
  rw [kindByScripts, kindOf]
  cases path.extension? with
  | none => rfl
  | some extension =>
    cases markup : listsExtension input.markupExtensions extension with
    | true => simp [markup, apart.not_both markup]
    | false => simp [markup]

theorem kindOf_congr
    (markup : Respelled input.markupExtensions other.markupExtensions)
    (scripts : Respelled input.scriptExtensions other.scriptExtensions) (path : Path) :
    other.kindOf path = input.kindOf path ∧ other.kindByScripts path = input.kindByScripts path := by
  simp only [kindOf, kindByScripts, listsExtension_respelled markup,
    listsExtension_respelled scripts, and_self]

end Input

/-- With an accepted manifest a path is markup exactly when it has an extension of markup, in
whatever case, and a script exactly when it has one of scripts; no path has both. So it does not
matter for which of the two one looks first, in which order the extensions are listed, and in which
case they are written. -/
theorem kinds_are_unambiguous {document : String} {manifest : Manifest}
    (accepted : read document = .ok manifest) (path : Path) :
    let input := manifest.input
    (input.kindOf path = some .markup ↔ Input.Ends input.markupExtensions path) ∧
    (input.kindOf path = some .script ↔ Input.Ends input.scriptExtensions path) ∧
    ¬(Input.Ends input.markupExtensions path ∧ Input.Ends input.scriptExtensions path) ∧
    ∀ other : Input, Respelled input.markupExtensions other.markupExtensions →
      Respelled input.scriptExtensions other.scriptExtensions →
      other.kindOf path = input.kindOf path ∧ other.kindByScripts path = input.kindOf path := by
  intro input
  obtain ⟨-, -, -, sound⟩ := read_eq_ok.mp accepted
  have apart : input.Disjoint := sound.apart
  refine ⟨Input.kindOf_eq_markup, apart.kindOf_eq_script, ?_, ?_⟩
  · rintro ⟨markup, script⟩
    have both := (Input.kindOf_eq_markup.mpr markup).symm.trans (apart.kindOf_eq_script.mpr script)
    cases both
  · intro other markup scripts
    obtain ⟨same, byScripts⟩ := Input.kindOf_congr markup scripts path
    exact ⟨same, byScripts.trans (apart.kindByScripts_eq path)⟩

/-- The manifest of a new project, and the same extensions in another order and case. -/
theorem kinds_of_new_project :
    let input : Input := {}
    let other : Input := ⟨"legacy", ["XML", "xfdl", "Xadl"], ["JS", "xjs"]⟩
    (read (Workspace.starterManifest "demo") = .ok ⟨"demo", input, {}, []⟩ ∧
      Respelled input.markupExtensions other.markupExtensions ∧
      Respelled input.scriptExtensions other.scriptExtensions) ∧
    Input.Ends input.markupExtensions ⟨"forms/main.xADL"⟩ ∧
    other.kindByScripts ⟨"forms/main.xADL"⟩ = some .markup := by
  intro input other
  have accepted : read (Workspace.starterManifest "demo") = .ok ⟨"demo", input, {}, []⟩ :=
    read_starterManifest (List.all_eq_true.mp (by decide)) (by decide)
  have alike {first second : String} (same : sameExtension first second = true) :
      SpelledAlike first second := sameExtension_iff.mp same
  have markup : Respelled input.markupExtensions other.markupExtensions :=
    ⟨["xml", "xfdl", "xadl"], by decide, .cons (alike (by decide)) (.cons (alike (by decide))
      (.cons (alike (by decide)) .nil))⟩
  have scripts : Respelled input.scriptExtensions other.scriptExtensions :=
    ⟨["js", "xjs"], by decide, .cons (alike (by decide)) (.cons (alike (by decide)) .nil)⟩
  obtain ⟨isMarkup, -, -, same⟩ := kinds_are_unambiguous accepted ⟨"forms/main.xADL"⟩
  have known : input.kindOf ⟨"forms/main.xADL"⟩ = some .markup := by
    decide
  exact ⟨⟨accepted, markup, scripts⟩, isMarkup.mp known, (same other markup scripts).2.trans known⟩

end Formwright.Manifest
