import Mathlib
import SegmentQuota.Proofs.Numerals
import SegmentQuota.Settings.Loading

/-!
Which layer decides a setting. Each of the seven settings is followed on its own: a
layer laid over settings either makes the setting or leaves it, so after any number of
layers it is as the last one to make it has it. The settings underneath make all seven,
and a usable value from the environment, which is read without the white space around
it, comes before every layer.
-/

namespace SegmentQuota.Text

/-- The code points with the Unicode property White_Space. -/
def whiteSpace : List Nat :=
  [0x9, 0xA, 0xB, 0xC, 0xD, 0x20, 0x85, 0xA0, 0x1680, 0x2000, 0x2001, 0x2002, 0x2003, 0x2004,
    0x2005, 0x2006, 0x2007, 0x2008, 0x2009, 0x200A, 0x2028, 0x2029, 0x202F, 0x205F, 0x3000]

/-- The core is what is left of the text without the white space at both ends. -/
structure Trimmed (text core : List Char) : Prop where
  cut : ∃ front back, text = front ++ core ++ back ∧ (∀ c ∈ front, c.toNat ∈ whiteSpace) ∧
    ∀ c ∈ back, c.toNat ∈ whiteSpace
  begins : ∀ c ∈ core.head?, c.toNat ∉ whiteSpace
  ends : ∀ c ∈ core.getLast?, c.toNat ∉ whiteSpace

theorem isBlank_iff (c : Char) : isBlank c ↔ c.toNat ∈ whiteSpace := by
  simp only [isBlank, whiteSpace, Bool.or_eq_true, Bool.and_eq_true, decide_eq_true_eq,
    beq_iff_eq, List.mem_cons, List.not_mem_nil, or_false]
  omega

theorem dropWhile_blank_append (front core back : List Char) (blank : ∀ c ∈ front, isBlank c)
    (begins : ∀ c ∈ core.head?, ¬isBlank c) (nonempty : core ≠ []) :
    (front ++ core ++ back).dropWhile isBlank = core ++ back := by
  obtain ⟨c, rest, rfl⟩ := List.exists_cons_of_ne_nil nonempty
  rw [List.append_assoc, List.dropWhile_append_of_pos blank, List.cons_append,
    List.dropWhile_cons_of_neg (begins c rfl)]

theorem trim_of_cut (front core back : List Char) (blank : ∀ c ∈ front, isBlank c)
    (blank' : ∀ c ∈ back, isBlank c) (begins : ∀ c ∈ core.head?, ¬isBlank c)
    (ends : ∀ c ∈ core.getLast?, ¬isBlank c) : trim (front ++ core ++ back) = core := by
  rcases eq_or_ne core [] with rfl | nonempty
  · have all_blank : ∀ c ∈ front ++ [] ++ back, isBlank c := by
      simpa [or_imp, forall_and] using ⟨blank, blank'⟩
    rw [trim, List.dropWhile_eq_nil_iff.mpr all_blank]
    rfl
  · have ends_reversed : ∀ c ∈ core.reverse.head?, ¬isBlank c := by rwa [List.head?_reverse]
    have from_back := dropWhile_blank_append back.reverse core.reverse []
      (by simpa using blank') ends_reversed (by simpa using nonempty)
    rw [trim, dropWhile_blank_append front core back blank begins nonempty, List.reverse_append]
    rw [List.append_nil, List.append_nil] at from_back
    rw [from_back, List.reverse_reverse]

theorem trimmed_trim (text : List Char) : Trimmed text (trim text) := by
  have trim_eq : trim text = (text.dropWhile isBlank).rdropWhile isBlank := rfl
  have front := List.takeWhile_append_dropWhile (p := isBlank) (l := text)
  have back := List.rdropWhile_append_rtakeWhile (p := isBlank) (l := text.dropWhile isBlank)
  refine ⟨⟨text.takeWhile isBlank, (text.dropWhile isBlank).rtakeWhile isBlank, ?_, ?_, ?_⟩, ?_, ?_⟩
  · rw [trim_eq, List.append_assoc, back, front]
  · exact fun c member => (isBlank_iff c).mp (List.mem_takeWhile_imp member)
  · exact fun c member => (isBlank_iff c).mp (List.mem_rtakeWhile_imp member)
  · intro c first
    obtain ⟨rest, begins⟩ := List.head?_eq_some_iff.mp (trim_eq ▸ first)
    have unblank := List.head?_dropWhile_not isBlank text
    rw [← back, begins] at unblank
    rw [← isBlank_iff]
    simpa using unblank
  · intro c last
    obtain ⟨nonempty, rfl⟩ := List.mem_getLast?_eq_getLast last
    rw [← isBlank_iff]
    exact List.rdropWhile_last_not isBlank _ nonempty

theorem trimmed_iff (text core : List Char) : Trimmed text core ↔ trim text = core := by
  constructor
  · rintro ⟨⟨front, back, rfl, blank, blank'⟩, begins, ends⟩
    simp only [← isBlank_iff] at *
    exact trim_of_cut front core back blank blank' begins ends
  · rintro rfl
    exact trimmed_trim text

end SegmentQuota.Text

namespace SegmentQuota.Settings

inductive Key where
  | limitPercent
  | width
  | background
  | excerpt
  | quota
  | overlap
  | exceeded

namespace Key

abbrev Kind : Key → Type
  | limitPercent => Float
  | width => Nat
  | background | excerpt | quota | overlap | exceeded => String

def value : (key : Key) → Settings → key.Kind
  | limitPercent => Settings.limitPercent
  | width => Settings.width
  | background => Settings.background
  | excerpt => Settings.excerpt
  | quota => Settings.quota
  | overlap => Settings.overlap
  | exceeded => Settings.exceeded

def made : (key : Key) → Layer → Option key.Kind
  | limitPercent => Layer.limitPercent
  | width => Layer.width
  | background => Layer.background
  | excerpt => Layer.excerpt
  | quota => Layer.quota
  | overlap => Layer.overlap
  | exceeded => Layer.exceeded

theorem value_over (key : Key) (layer : Layer) (base : Settings) :
    key.value (layer.over base) = (key.made layer).getD (key.value base) := by
  cases key <;> rfl

end Key

theorem eq_of_values (a b : Settings) (same : ∀ key : Key, key.value a = key.value b) : a = b := by
  cases a
  cases b
  simp only [mk.injEq]
  exact ⟨same .limitPercent, same .width, same .background, same .excerpt, same .quota,
    same .overlap, same .exceeded⟩

def asLayer (s : Settings) : Layer where
  limitPercent := some s.limitPercent
  width := some s.width
  background := some s.background
  excerpt := some s.excerpt
  quota := some s.quota
  overlap := some s.overlap
  exceeded := some s.exceeded

theorem made_asLayer (key : Key) (s : Settings) : key.made s.asLayer = some (key.value s) := by
  cases key <;> rfl

set_option maxRecDepth 10000 in
theorem toml_reads_shipped : Reader.toml.settings? shipped = some initial := by
  decide +kernel

def LastMakes (layers : List Layer) (key : Key) (value : key.Kind) : Prop :=
  ∃ earlier layer later, layers = earlier ++ layer :: later ∧ key.made layer = some value ∧
    ∀ other ∈ later, key.made other = none

theorem lastMakes_iff_findSome (layers : List Layer) (key : Key) (value : key.Kind) :
    LastMakes layers key value ↔ layers.reverse.findSome? key.made = some value := by
  rw [List.findSome?_eq_some_iff]
  constructor
  · rintro ⟨earlier, layer, later, rfl, makes, leave⟩
    exact ⟨later.reverse, layer, earlier.reverse, by simp, makes, by simpa using leave⟩
  · rintro ⟨later, layer, earlier, cut, makes, leave⟩
    refine ⟨earlier.reverse, layer, later.reverse, ?_, makes, by simpa using leave⟩
    rw [← List.reverse_reverse layers, cut]
    simp

theorem value_foldl_over_iff (base : Settings) (layers : List Layer) (key : Key)
    (value : key.Kind) :
    key.value (layers.foldl (fun base layer => layer.over base) base) = value ↔
      LastMakes (base.asLayer :: layers) key value := by
  -- From the last layer, which decides alone unless it leaves the setting open.
  induction layers using List.reverseRecOn with
  | nil => simp [lastMakes_iff_findSome, made_asLayer]
  | append_singleton layers layer ih =>
      rw [lastMakes_iff_findSome] at ih ⊢
      rw [List.foldl_append, List.foldl_cons, List.foldl_nil, Key.value_over, ← List.cons_append,
        List.reverse_append, List.reverse_singleton, List.singleton_append, List.findSome?_cons]
      cases key.made layer with
      | none => exact ih
      | some own => simp

namespace Surroundings

variable (s : Surroundings)

/-- The environment has a value that can be used for the setting. -/
def Overrides : (key : Key) → key.Kind → Prop
  | .limitPercent, x =>
      ∃ raw core, s.limitPercent = some raw ∧ Text.Trimmed raw.toList core ∧
        Decimal.readFloat? core = some x ∧ x.isFinite ∧ 0.0 ≤ x
  | .width, n =>
      ∃ raw core, s.outlineWidth = some raw ∧ Text.Trimmed raw.toList core ∧
        Decimal.IsCount core n
  | .background, _ | .excerpt, _ | .quota, _ | .overlap, _ | .exceeded, _ => False

theorem readPercentOverride_eq_some_iff (text : String) (x : Float) :
    readPercentOverride? text = some x ↔
      Decimal.readFloat? (Text.trim text.toList) = some x ∧ x.isFinite ∧ 0.0 ≤ x := by
  rw [readPercentOverride?]
  cases Decimal.readFloat? (Text.trim text.toList) with
  | none => simp
  | some y =>
      simp only [Option.ite_none_right_eq_some, Option.some.injEq, Bool.and_eq_true,
        decide_eq_true_eq]
      constructor
      · rintro ⟨usable, rfl⟩
        exact ⟨rfl, usable⟩
      · rintro ⟨rfl, usable⟩
        exact ⟨usable, rfl⟩

theorem readWidthOverride_eq_some_iff (text : String) (n : Nat) :
    readWidthOverride? text = some n ↔ Decimal.IsCount (Text.trim text.toList) n :=
  Decimal.readCount_eq_some_iff _ n

theorem overrides_iff (key : Key) (value : key.Kind) :
    s.Overrides key value ↔ key.made s.environment = some value := by
  cases key with
  | limitPercent | width =>
      simp only [Overrides, Key.made, environment, Option.bind_eq_some_iff,
        readPercentOverride_eq_some_iff, readWidthOverride_eq_some_iff, Text.trimmed_iff,
        exists_and_left, exists_eq_left']
  | background | excerpt | quota | overlap | exceeded => simp [Overrides, Key.made, environment]

/-- Under these layers the setting comes out so: as the environment has it, or else as
the last layer to make it does, the settings of the base being the first. -/
def Prevails (base : Settings) (layers : List Layer) (key : Key) (value : key.Kind) : Prop :=
  s.Overrides key value ∨
    (∀ other, ¬s.Overrides key other) ∧ LastMakes (base.asLayer :: layers) key value

theorem value_settle_iff (base : Settings) (layers : List Layer) (key : Key) (value : key.Kind) :
    key.value (s.settle base layers) = value ↔ s.Prevails base layers key value := by
  rw [settle, Key.value_over, Prevails, ← value_foldl_over_iff]
  simp only [overrides_iff]
  cases key.made s.environment with
  | none => simp
  | some own => simp

theorem settle_eq_iff (base : Settings) (layers : List Layer) (settings : Settings) :
    s.settle base layers = settings ↔
      ∀ (key : Key) (value : key.Kind),
        key.value settings = value ↔ s.Prevails base layers key value := by
  constructor
  · rintro rfl
    exact s.value_settle_iff base layers
  · intro law
    refine eq_of_values _ _ fun key => ?_
    rw [value_settle_iff, ← law]

end Surroundings

end SegmentQuota.Settings
