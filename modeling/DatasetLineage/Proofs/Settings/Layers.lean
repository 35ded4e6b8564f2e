import DatasetLineage.Settings.Basic
import Mathlib.Logic.Basic

/-!
# Layers of settings

A layer gives a value for a setting unless it leaves the setting at its default.  What it does
not give stays as it is in the layers below, so no layer takes a setting back to its default,
and layers can be put together in any grouping.  Pretty printing is an exception to the first
rule: every layer decides it, also one that leaves it at its default.
-/

namespace DatasetLineage

/-- One of the settings. -/
inductive Setting where
  | maxDepth
  | allowUpdates
  | requireKnownDatasets
  | maxFetchRounds
  | format
  | pretty
deriving DecidableEq

def Setting.Value : Setting → Type
  | .maxDepth => Nat
  | .allowUpdates => Bool
  | .requireKnownDatasets => Bool
  | .maxFetchRounds => Nat
  | .format => Format
  | .pretty => Bool

namespace Settings

def value (settings : Settings) : (setting : Setting) → setting.Value
  | .maxDepth => settings.merge.maxDepth
  | .allowUpdates => settings.merge.allowUpdates
  | .requireKnownDatasets => settings.store.requireKnownDatasets
  | .maxFetchRounds => settings.store.maxFetchRounds
  | .format => settings.output.format
  | .pretty => settings.output.pretty

/-- A layer gives a value for a setting, other than the default. -/
def Gives (layer : Settings) (setting : Setting) : Prop :=
  layer.value setting ≠ value {} setting

/-- What two layers come to at a setting: the value of the upper one if it gives one, and else
that of the lower one. -/
structure Decided (base upper result : Settings) (setting : Setting) : Prop where
  kept : ¬ upper.Gives setting → result.value setting = base.value setting
  taken : upper.Gives setting → result.value setting = upper.value setting

variable {base upper top : Settings} {setting : Setting}

/-- Settings are the same if they agree on every setting. -/
theorem ext_value {left right : Settings}
    (hvalues : ∀ setting, left.value setting = right.value setting) : left = right := by
  obtain ⟨⟨leftDepth, leftAllowed⟩, ⟨leftRequired, leftRounds⟩, ⟨leftFormat, leftPretty⟩⟩ := left
  obtain ⟨⟨depth, allowed⟩, ⟨required, rounds⟩, ⟨format, pretty⟩⟩ := right
  cases hvalues .maxDepth
  cases hvalues .allowUpdates
  cases hvalues .requireKnownDatasets
  cases hvalues .maxFetchRounds
  cases hvalues .format
  cases hvalues .pretty
  rfl

/-- Of two flags that are joined, the higher one counts if it is set, and else the lower one. -/
theorem or_decided {lower higher : Bool} :
    (¬ higher ≠ false → (lower || higher) = lower) ∧
      (higher ≠ false → (lower || higher) = higher) := by
  cases lower <;> cases higher <;> decide

/-- Layering decides every setting but pretty printing by what the upper layer gives. -/
theorem decided_layered (base upper : Settings) (hsetting : setting ≠ .pretty) :
    Decided base upper (base.layered upper) setting := by
  cases setting with
  | maxDepth => exact ⟨fun hunset => if_neg hunset, fun hgiven => if_pos hgiven⟩
  | allowUpdates => exact ⟨or_decided.1, or_decided.2⟩
  | requireKnownDatasets => exact ⟨or_decided.1, or_decided.2⟩
  | maxFetchRounds => exact ⟨fun hunset => if_neg hunset, fun hgiven => if_pos hgiven⟩
  | format => exact ⟨fun hunset => if_neg hunset, fun hgiven => if_pos hgiven⟩
  | pretty => exact absurd rfl hsetting

/-- Pretty printing is as the upper layer has it, given or not. -/
theorem value_pretty_layered (base upper : Settings) :
    (base.layered upper).value .pretty = upper.value .pretty := rfl

/-- Pretty printing is decided like the other settings unless the upper layer would have to
leave it switched off. -/
theorem decided_pretty_iff :
    Decided base upper (base.layered upper) .pretty ↔
      upper.Gives .pretty ∨ ¬ base.Gives .pretty := by
  by_cases hupper : upper.Gives .pretty
  · refine iff_of_true ⟨fun hunset => absurd hupper hunset, fun _ => ?_⟩ (.inl hupper)
    exact value_pretty_layered base upper
  · constructor
    · intro hdecided
      right
      rw [Gives, ← hdecided.kept hupper, value_pretty_layered]
      exact hupper
    · rintro (hgiven | hbase)
      · exact absurd hgiven hupper
      · refine ⟨fun _ => ?_, fun hgiven => absurd hgiven hupper⟩
        rw [value_pretty_layered, not_not.1 hupper, not_not.1 hbase]

/-! ## Several layers -/

/-- Two layers together give what one of them gives. -/
theorem gives_layered_iff (base upper : Settings) (hsetting : setting ≠ .pretty) :
    (base.layered upper).Gives setting ↔ base.Gives setting ∨ upper.Gives setting := by
  have hdecided := decided_layered base upper hsetting
  by_cases hupper : upper.Gives setting
  · have hboth : (base.layered upper).Gives setting := by
      rw [Gives, hdecided.taken hupper]
      exact hupper
    exact iff_of_true hboth (.inr hupper)
  · rw [Gives, hdecided.kept hupper]
    exact (or_iff_left hupper).symm

/-- Layers can be put together in any grouping. -/
theorem layered_assoc (base upper top : Settings) :
    (base.layered upper).layered top = base.layered (upper.layered top) := by
  apply ext_value
  intro setting
  by_cases hpretty : setting = .pretty
  · subst hpretty
    rfl
  · have hlower := decided_layered base upper hpretty
    have hupper := decided_layered upper top hpretty
    have hleft := decided_layered (base.layered upper) top hpretty
    have hright := decided_layered base (upper.layered top) hpretty
    have hgives := gives_layered_iff upper top hpretty
    by_cases htop : top.Gives setting
    · rw [hleft.taken htop, hright.taken (hgives.2 (.inr htop)), hupper.taken htop]
    · by_cases hmiddle : upper.Gives setting
      · rw [hleft.kept htop, hlower.taken hmiddle, hright.taken (hgives.2 (.inl hmiddle)),
          hupper.kept htop]
      · have hneither : ¬ (upper.layered top).Gives setting := by
          rw [hgives]
          exact not_or.2 ⟨hmiddle, htop⟩
        rw [hleft.kept htop, hlower.kept hmiddle, hright.kept hneither]

/-- A layer that gives nothing changes nothing but pretty printing, which it switches on. -/
theorem layered_default_iff : base.layered {} = base ↔ ¬ base.Gives .pretty := by
  constructor
  · intro hsame
    rw [Gives, ← hsame, value_pretty_layered]
    exact not_not.2 rfl
  · intro hbase
    apply ext_value
    intro setting
    have hnothing : ¬ ({} : Settings).Gives setting := not_not.2 rfl
    by_cases hpretty : setting = .pretty
    · subst hpretty
      exact (decided_pretty_iff.2 (.inr hbase)).kept hnothing
    · exact (decided_layered base {} hpretty).kept hnothing

/-- Every setting but pretty printing is kept by a layer that leaves it at its default and
taken from a layer that does not, so it is never switched back to its default.  Pretty printing
is always that of the upper layer, which differs only if the upper layer has it at its default
and the lower one does not; then the default settings are not without effect as a layer.  Layers
can be put together in any grouping. -/
theorem layered_respects_unset (base upper top : Settings) :
    (∀ setting, setting ≠ .pretty →
      Decided base upper (base.layered upper) setting ∧
        (base.Gives setting → (base.layered upper).Gives setting)) ∧
      (base.layered upper).value .pretty = upper.value .pretty ∧
      (Decided base upper (base.layered upper) .pretty ↔
        upper.Gives .pretty ∨ ¬ base.Gives .pretty) ∧
      (base.layered {} = base ↔ ¬ base.Gives .pretty) ∧
      (base.layered upper).layered top = base.layered (upper.layered top) := by
  refine ⟨fun setting hsetting => ⟨decided_layered base upper hsetting, fun hbase => ?_⟩,
    value_pretty_layered base upper, decided_pretty_iff, layered_default_iff,
    layered_assoc base upper top⟩
  exact (gives_layered_iff base upper hsetting).2 (.inl hbase)

/-- The default settings switch pretty printing on again. -/
theorem layered_respects_unset_fails_of_pretty :
    let base : Settings := { output := { pretty := false } }
    ¬ ({} : Settings).Gives .pretty ∧
      (base.layered {}).value .pretty ≠ base.value .pretty ∧ base.layered {} ≠ base := by
  refine ⟨not_not.2 rfl, ?_, by decide⟩
  exact Bool.noConfusion

end Settings

end DatasetLineage
