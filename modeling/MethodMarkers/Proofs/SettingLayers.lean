import MethodMarkers.Draft.Override
import MethodMarkers.SettingsTable

namespace MethodMarkers

inductive Setting where
  | beginSample
  | endSample
  | indentUnit
  | iteratorMarkers
  | extensions
  | includePatterns
  | excludePatterns
  | encoding
  deriving DecidableEq, Repr

namespace Setting

def all : List Setting :=
  [beginSample, endSample, indentUnit, iteratorMarkers, extensions, includePatterns,
    excludePatterns, encoding]

def isList : Setting → Bool
  | iteratorMarkers | extensions | includePatterns | excludePatterns => true
  | beginSample | endSample | indentUnit | encoding => false

/-- A value as a layer takes it up: file suffixes are normalised. -/
def adopt (setting : Setting) (value : Toml.Value) : Toml.Value :=
  match setting, value.texts? with
  | extensions, some texts => .ofTexts (texts.map normalizeExtension)
  | _, _ => value

end Setting

namespace Draft

def value (draft : Draft) : Setting → Toml.Value
  | .beginSample => draft.beginSample
  | .endSample => draft.endSample
  | .indentUnit => draft.indentUnit
  | .iteratorMarkers => draft.iteratorMarkers
  | .extensions => draft.extensions
  | .includePatterns => draft.includePatterns
  | .excludePatterns => draft.excludePatterns
  | .encoding => draft.encoding

end Draft

namespace Snapshot

def value (snapshot : Snapshot) : Setting → Toml.Value
  | .beginSample => snapshot.beginSample
  | .endSample => snapshot.endSample
  | .indentUnit => snapshot.indentUnit
  | .iteratorMarkers => .list snapshot.iteratorMarkers
  | .extensions => .list snapshot.extensions
  | .includePatterns => .list snapshot.includePatterns
  | .excludePatterns => .list snapshot.excludePatterns
  | .encoding => snapshot.encoding

variable {snapshot other : Snapshot}

theorem ext_value (hv : ∀ setting, snapshot.value setting = other.value setting)
    (hs : snapshot.sources = other.sources) : snapshot = other := by
  cases snapshot
  cases other
  cases hs
  cases hv .beginSample
  cases hv .endSample
  cases hv .indentUnit
  cases hv .iteratorMarkers
  cases hv .extensions
  cases hv .includePatterns
  cases hv .excludePatterns
  cases hv .encoding
  rfl

end Snapshot

namespace Toml.Value

variable (value upper lower : Value)

theorem over_of_isMissing {upper : Value} (h : upper.isMissing = true) : upper.over lower = lower :=
  if_pos h

theorem over_of_not_isMissing {upper : Value} (h : upper.isMissing = false) :
    upper.over lower = upper := by
  rw [Value.over, h]
  rfl

theorem over_of_ne {upper : Value} (h : upper ≠ missing) : upper.over lower = upper :=
  over_of_not_isMissing lower (Bool.eq_false_iff.2 (mt isMissing_iff.1 h))

@[simp] theorem missing_over : (missing : Value).over value = value :=
  rfl

@[simp] theorem over_missing : value.over missing = value := by
  unfold Value.over
  split
  · next h => exact (isMissing_iff.1 h).symm
  · rfl

theorem over_assoc (a b c : Value) : (a.over b).over c = a.over (b.over c) := by
  cases h : a.isMissing with
  | true => rw [over_of_isMissing b h, over_of_isMissing (b.over c) h]
  | false =>
    rw [over_of_not_isMissing b h, over_of_not_isMissing c h, over_of_not_isMissing (b.over c) h]

theorem isMissing_over : (upper.over lower).isMissing = (upper.isMissing && lower.isMissing) := by
  cases h : upper.isMissing with
  | true => rw [over_of_isMissing lower h, Bool.true_and]
  | false => rw [over_of_not_isMissing lower h, h, Bool.false_and]

def lastSet (values : List Value) : Value :=
  values.foldr (fun value later => later.over value) missing

@[simp] theorem lastSet_cons (value : Value) (values : List Value) :
    lastSet (value :: values) = (lastSet values).over value :=
  rfl

theorem lastSet_append (values more : List Value) :
    lastSet (values ++ more) = (lastSet more).over (lastSet values) := by
  induction values with
  | nil => exact (over_missing _).symm
  | cons value values ih => rw [List.cons_append, lastSet_cons, ih, lastSet_cons, over_assoc]

example : lastSet [.list [.text ".cs"], .list [], .missing] = .list [] := rfl

end Toml.Value

namespace Draft
open Toml (Value)

variable {draft lower upper : Draft}

theorem ext_value (hv : ∀ setting, lower.value setting = upper.value setting)
    (hs : lower.sources = upper.sources) (ht : lower.strays = upper.strays) : lower = upper := by
  cases lower
  cases upper
  cases hs
  cases ht
  cases hv .beginSample
  cases hv .endSample
  cases hv .indentUnit
  cases hv .iteratorMarkers
  cases hv .extensions
  cases hv .includePatterns
  cases hv .excludePatterns
  cases hv .encoding
  rfl

@[simp] theorem value_empty (setting : Setting) : ({} : Draft).value setting = .missing := by
  cases setting <;> rfl

@[simp] theorem merge_value (lower upper : Draft) (setting : Setting) :
    (lower.merge upper).value setting = (upper.value setting).over (lower.value setting) := by
  cases setting <;> rfl

@[simp] theorem merge_sources (lower upper : Draft) :
    (lower.merge upper).sources = lower.sources ++ upper.sources :=
  rfl

@[simp] theorem merge_strays (lower upper : Draft) :
    (lower.merge upper).strays = upper.strays ++ lower.strays :=
  rfl

theorem merge_assoc (a b c : Draft) : (a.merge b).merge c = a.merge (b.merge c) := by
  apply ext_value
  · intro setting
    simp only [merge_value, Value.over_assoc]
  · exact List.append_assoc ..
  · exact (List.append_assoc ..).symm

theorem empty_merge (draft : Draft) : ({} : Draft).merge draft = draft := by
  apply ext_value
  · intro setting
    rw [merge_value, value_empty, Value.over_missing]
  · rfl
  · exact List.append_nil _

theorem merge_empty (draft : Draft) : draft.merge {} = draft := by
  apply ext_value
  · intro setting
    rw [merge_value, value_empty, Value.missing_over]
  · exact List.append_nil _
  · rfl

theorem foldl_merge_value (draft : Draft) (layers : List Draft) (setting : Setting) :
    (layers.foldl merge draft).value setting =
      Value.lastSet (draft.value setting :: layers.map (·.value setting)) := by
  induction layers generalizing draft with
  | nil => rfl
  | cons layer layers ih =>
    rw [List.foldl_cons, ih, merge_value, List.map_cons, Value.lastSet_cons, Value.lastSet_cons,
      Value.lastSet_cons, Value.over_assoc]

theorem foldl_merge_sources (draft : Draft) (layers : List Draft) :
    (layers.foldl merge draft).sources = draft.sources ++ layers.flatMap (·.sources) := by
  induction layers generalizing draft with
  | nil => exact (List.append_nil _).symm
  | cons layer layers ih =>
    rw [List.foldl_cons, ih, merge_sources, List.flatMap_cons, List.append_assoc]

/-- A layer in which nothing hides an operation, with lists where lists belong. -/
structure Sound (draft : Draft) : Prop where
  strays_eq : draft.strays = []
  listed : ∀ setting : Setting, setting.isList = true → draft.value setting ≠ .missing →
    ∃ items, draft.value setting = .list items

theorem Sound.merge (hl : lower.Sound) (hu : upper.Sound) : (lower.merge upper).Sound where
  strays_eq := by rw [merge_strays, hl.strays_eq, hu.strays_eq, List.append_nil]
  listed setting hs hm := by
    rw [merge_value] at hm ⊢
    by_cases h : upper.value setting = .missing
    · rw [h, Value.missing_over] at hm ⊢
      exact hl.listed setting hs hm
    · rw [Value.over_of_ne _ h]
      exact hu.listed setting hs h

theorem Sound.foldl_merge {layers : List Draft} (hd : draft.Sound)
    (hl : ∀ layer ∈ layers, layer.Sound) : (layers.foldl Draft.merge draft).Sound := by
  induction layers generalizing draft with
  | nil => exact hd
  | cons layer layers ih =>
    rw [List.forall_mem_cons] at hl
    exact ih (hd.merge hl.1) hl.2

theorem ofSnapshot_value (snapshot : Snapshot) (setting : Setting) :
    (ofSnapshot snapshot).value setting = snapshot.value setting := by
  cases setting <;> rfl

theorem ofSnapshot_sound (snapshot : Snapshot) : (ofSnapshot snapshot).Sound where
  strays_eq := rfl
  listed setting hs _ := by
    cases setting with
    | iteratorMarkers | extensions | includePatterns | excludePatterns => exact ⟨_, rfl⟩
    | beginSample | endSample | indentUnit | encoding => cases hs

theorem defaults_value_isMissing (setting : Setting) :
    (defaults.value setting).isMissing = false := by
  cases setting <;> rfl

theorem over_defaults_ne (value : Value) (setting : Setting) :
    value.over (defaults.value setting) ≠ .missing := by
  rw [Ne, ← Value.isMissing_iff, Value.isMissing_over, defaults_value_isMissing, Bool.and_false]
  exact Bool.false_ne_true

theorem listOf_list (items : List Value) : listOf (.list items) = .ok items := by
  cases items <;> rfl

/-- Freezing takes over what a sound layer sets, and takes the rest from the built-in settings. -/
theorem Sound.freeze (h : draft.Sound) :
    ∃ snapshot, draft.freeze = .ok snapshot ∧ snapshot.sources = draft.sources ∧
      ∀ setting, snapshot.value setting = (draft.value setting).over (defaults.value setting) := by
  have hfull : (defaults.merge draft).Sound := (ofSnapshot_sound _).merge h
  have hlist : ∀ setting : Setting, setting.isList = true →
      ∃ items, (defaults.merge draft).value setting = .list items := by
    intro setting hs
    apply hfull.listed setting hs
    rw [merge_value]
    exact over_defaults_ne _ setting
  obtain ⟨iteratorMarkers, hi⟩ := hlist .iteratorMarkers rfl
  obtain ⟨extensions, he⟩ := hlist .extensions rfl
  obtain ⟨includePatterns, hn⟩ := hlist .includePatterns rfl
  obtain ⟨excludePatterns, hx⟩ := hlist .excludePatterns rfl
  have hallow (operation : String) : draft.allow operation = .ok () := by
    rw [allow, h.strays_eq]
    rfl
  have hcopy : draft.copy = .ok draft := by
    rw [copy, h.strays_eq]
    rfl
  have hrequire : draft.requireSources = .ok () := by
    rw [requireSources, h.strays_eq]
    rfl
  simp only [value] at hi he hn hx
  refine ⟨{
    beginSample := (defaults.merge draft).beginSample
    endSample := (defaults.merge draft).endSample
    indentUnit := (defaults.merge draft).indentUnit
    iteratorMarkers, extensions, includePatterns, excludePatterns
    encoding := (defaults.merge draft).encoding
    sources := (defaults.merge draft).sources }, ?_, rfl, ?_⟩
  · unfold Draft.freeze
    rw [hallow, hcopy, hrequire]
    simp only [hi, he, hn, hx, listOf_list, bind, Except.bind, pure, Except.pure]
  · intro setting
    rw [← merge_value]
    cases setting with
    | iteratorMarkers => exact hi.symm
    | extensions => exact he.symm
    | includePatterns => exact hn.symm
    | excludePatterns => exact hx.symm
    | beginSample | endSample | indentUnit | encoding => rfl

theorem freeze_ofSnapshot {snapshot : Snapshot}
    (h : ∀ setting, snapshot.value setting ≠ .missing) :
    (ofSnapshot snapshot).freeze = .ok snapshot := by
  obtain ⟨frozen, hf, hs, hv⟩ := (ofSnapshot_sound snapshot).freeze
  have heq : frozen = snapshot := by
    apply Snapshot.ext_value _ hs
    intro setting
    rw [hv, ofSnapshot_value, Value.over_of_ne _ (h setting)]
  rw [hf, heq]

end Draft

theorem Snapshot.ofSettings_value_ne (settings : Settings) (setting : Setting) :
    (ofSettings settings).value setting ≠ .missing := by
  cases setting <;> exact nofun

end MethodMarkers
