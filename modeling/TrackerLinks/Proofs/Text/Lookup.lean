import Mathlib.Data.List.Nodup
import Mathlib.Data.List.Perm.Basic
import TrackerLinks.Text.Basic

namespace TrackerLinks.Text

variable {entries entries' : List (Text × α)} {key : Text} {value : α}

/-- A text may stand in the table more than once, but always with the same value. -/
def IsUnambiguous (entries : List (Text × α)) : Prop :=
  ∀ key value value', (key, value) ∈ entries → (key, value') ∈ entries → value = value'

theorem isUnambiguous_of_nodup (distinct : (entries.map Prod.fst).Nodup) :
    IsUnambiguous entries := by
  intro key value value' member member'
  exact congrArg Prod.snd (List.inj_on_of_nodup_map distinct member member' rfl)

theorem mem_of_lookup_eq_some (found : entries.lookup key = some value) :
    (key, value) ∈ entries := by
  obtain ⟨front, back, rfl, _⟩ := List.lookup_eq_some_iff.mp found
  exact List.mem_append_right front List.mem_cons_self

theorem lookup_eq_some_iff (unambiguous : IsUnambiguous entries) :
    entries.lookup key = some value ↔ (key, value) ∈ entries := by
  refine ⟨mem_of_lookup_eq_some, ?_⟩
  intro member
  have present : (entries.lookup key).isSome :=
    List.lookup_isSome_iff.mpr ⟨_, member, beq_self_eq_true key⟩
  obtain ⟨value', found⟩ := Option.isSome_iff_exists.mp present
  rw [found, unambiguous key value value' member (mem_of_lookup_eq_some found)]

theorem lookup_eq_of_perm (unambiguous : IsUnambiguous entries) (same : entries'.Perm entries)
    (key : Text) : entries'.lookup key = entries.lookup key := by
  have unambiguous' : IsUnambiguous entries' := fun key value value' member member' =>
    unambiguous key value value' (same.subset member) (same.subset member')
  ext value
  rw [lookup_eq_some_iff unambiguous, lookup_eq_some_iff unambiguous', same.mem_iff]

end TrackerLinks.Text
