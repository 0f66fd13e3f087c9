import Mathlib.Data.List.Nodup
import Mathlib.Data.List.Perm.Basic
import Mathlib.Logic.Function.Basic

/-!
# Tokens in places

Every place holds a list of tokens. A token that is in one place only, and there once, stays so
when some tokens of a place go to another one, in whatever order; tokens that are not put down again
are lost, and they are the only ones.

## Main definitions

* `Held`, `Apart`, `Loses`

## Main results

* `loses_move`: some tokens of a place move to another place, some are lost
* `Loses.trans`
* `Apart.enter`: a new token
-/

namespace Placement

variable {π α : Type*} {b b' b'' : π → List α} {p q : π} {a : α} {moved kept lost lost' : List α}

/-- Token `a` is in some place. -/
def Held (b : π → List α) (a : α) : Prop := ∃ p, a ∈ b p

/-- No token is in two places, or twice in one. -/
structure Apart (b : π → List α) : Prop where
  nodup : ∀ p, (b p).Nodup
  unique : ∀ p q a, a ∈ b p → a ∈ b q → p = q

/-- **Nothing is lost but `lost`**, and nothing is made. -/
def Loses (lost : List α) (b b' : π → List α) : Prop :=
  Apart b → Apart b' ∧ ∀ a, Held b' a ↔ Held b a ∧ a ∉ lost

theorem Apart.existsUnique (h : Apart b) (ha : Held b a) : ∃! p, a ∈ b p := by
  obtain ⟨p, hp⟩ := ha
  exact ⟨p, hp, fun q hq => h.unique q p a hq hp⟩

theorem Apart.perm (h : Apart b) (hperm : ∀ p, (b' p).Perm (b p)) : Apart b' where
  nodup p := (hperm p).nodup_iff.mpr (h.nodup p)
  unique p q a hp hq := h.unique p q a ((hperm p).mem_iff.mp hp) ((hperm q).mem_iff.mp hq)

theorem loses_of_perm (hperm : ∀ p, (b' p).Perm (b p)) : Loses [] b b' := by
  refine fun h => ⟨h.perm hperm, fun a => ?_⟩
  rw [and_iff_left List.not_mem_nil]
  exact exists_congr fun p => (hperm p).mem_iff

/-- Several moves. -/
theorem Loses.trans (h : Loses lost b b') (h' : Loses lost' b' b'') :
    Loses (lost ++ lost') b b'' := by
  intro hb
  obtain ⟨hb', hheld⟩ := h hb
  obtain ⟨hb'', hheld'⟩ := h' hb'
  refine ⟨hb'', fun a => ?_⟩
  rw [hheld', hheld, List.mem_append, not_or, and_assoc]

/-- **Some tokens of a place move to another one**, and some are lost. -/
theorem loses_move (hne : p ≠ q) (hp : (b p).Perm (moved ++ (kept ++ lost)))
    (hp' : (b' p).Perm kept) (hq' : (b' q).Perm (b q ++ moved))
    (hothers : ∀ r, r ≠ p → r ≠ q → (b' r).Perm (b r)) : Loses lost b b' := by
  intro hb
  have hnodup : (moved ++ (kept ++ lost)).Nodup := hp.nodup_iff.mp (hb.nodup p)
  have hmem : ∀ a, a ∈ b p ↔ a ∈ moved ∨ a ∈ kept ∨ a ∈ lost := fun a => by
    rw [hp.mem_iff, List.mem_append, List.mem_append]
  -- where the tokens of a place come from
  have hfrom : ∀ r a, a ∈ b' r → (r = q ∧ a ∈ moved) ∨ (a ∈ b r ∧ (r = p → a ∈ kept)) := by
    intro r a ha
    by_cases hrp : r = p
    · subst hrp
      have hkept := hp'.mem_iff.mp ha
      exact .inr ⟨(hmem a).mpr (.inr (.inl hkept)), fun _ => hkept⟩
    · by_cases hrq : r = q
      · subst hrq
        rcases List.mem_append.mp (hq'.mem_iff.mp ha) with hold | hmoved
        · exact .inr ⟨hold, fun h => absurd h hrp⟩
        · exact .inl ⟨rfl, hmoved⟩
      · exact .inr ⟨(hothers r hrp hrq).mem_iff.mp ha, fun h => absurd h hrp⟩
  obtain ⟨hmovedNodup, hrestNodup, hdisjoint⟩ := List.nodup_append.mp hnodup
  obtain ⟨hkeptNodup, -, hdisjoint'⟩ := List.nodup_append.mp hrestNodup
  have hapart : ∀ a, a ∈ moved → a ∈ b p ∧ a ∉ kept := fun a ha =>
    ⟨(hmem a).mpr (.inl ha), fun hkept =>
      hdisjoint a ha a (List.mem_append_left lost hkept) rfl⟩
  refine ⟨⟨fun r => ?_, fun r s a hr hs => ?_⟩, fun a => ⟨?_, ?_⟩⟩
  · by_cases hrp : r = p
    · rw [hrp]
      exact hp'.nodup_iff.mpr hkeptNodup
    · by_cases hrq : r = q
      · rw [hrq, hq'.nodup_iff, List.nodup_append]
        refine ⟨hb.nodup q, hmovedNodup, fun x hx y hy hxy => hne ?_⟩
        subst hxy
        exact hb.unique p q x (hapart x hy).1 hx
      · exact (hothers r hrp hrq).nodup_iff.mpr (hb.nodup r)
  · rcases hfrom r a hr with ⟨hrq, hmoved⟩ | ⟨hrb, hrkept⟩
    · rcases hfrom s a hs with ⟨hsq, -⟩ | ⟨hsb, hskept⟩
      · rw [hrq, hsq]
      · have hsp : p = s := hb.unique p s a (hapart a hmoved).1 hsb
        exact absurd (hskept hsp.symm) (hapart a hmoved).2
    · rcases hfrom s a hs with ⟨hsq, hmoved⟩ | ⟨hsb, -⟩
      · have hrp : p = r := hb.unique p r a (hapart a hmoved).1 hrb
        exact absurd (hrkept hrp.symm) (hapart a hmoved).2
      · exact hb.unique r s a hrb hsb
  · rintro ⟨r, hr⟩
    rcases hfrom r a hr with ⟨-, hmoved⟩ | ⟨hrb, hrkept⟩
    · refine ⟨⟨p, (hapart a hmoved).1⟩, fun hlost => ?_⟩
      exact hdisjoint a hmoved a (List.mem_append_right kept hlost) rfl
    · refine ⟨⟨r, hrb⟩, fun hlost => ?_⟩
      have hrp : p = r := hb.unique p r a ((hmem a).mpr (.inr (.inr hlost))) hrb
      exact hdisjoint' a (hrkept hrp.symm) a hlost rfl
  · rintro ⟨⟨r, hr⟩, hlost⟩
    by_cases hrp : r = p
    · subst hrp
      rcases (hmem a).mp hr with hmoved | hkept | h
      · exact ⟨q, hq'.mem_iff.mpr (List.mem_append_right _ hmoved)⟩
      · exact ⟨r, hp'.mem_iff.mpr hkept⟩
      · exact absurd h hlost
    · by_cases hrq : r = q
      · subst hrq
        exact ⟨r, hq'.mem_iff.mpr (List.mem_append_left _ hr)⟩
      · exact ⟨r, (hothers r hrp hrq).mem_iff.mpr hr⟩

/-- A new token is put into a place. -/
theorem Apart.enter (h : Apart b) (hnew : ¬Held b a) (hp : (b' p).Perm (b p ++ [a]))
    (hothers : ∀ r, r ≠ p → b' r = b r) :
    Apart b' ∧ ∀ x, Held b' x ↔ Held b x ∨ x = a := by
  have hmem : ∀ r x, x ∈ b' r ↔ x ∈ b r ∨ (r = p ∧ x = a) := by
    intro r x
    by_cases hrp : r = p
    · subst hrp
      rw [hp.mem_iff, List.mem_append, List.mem_singleton]
      exact or_congr_right (iff_and_self.mpr fun _ => rfl)
    · rw [hothers r hrp]
      exact (or_iff_left fun hx => hrp hx.1).symm
  refine ⟨⟨fun r => ?_, fun r s x hr hs => ?_⟩, fun x => ⟨?_, ?_⟩⟩
  · by_cases hrp : r = p
    · subst hrp
      rw [hp.nodup_iff, List.nodup_append]
      refine ⟨h.nodup r, List.nodup_singleton a, fun x hx y hy hxy => hnew ?_⟩
      rw [← List.mem_singleton.mp hy, ← hxy]
      exact ⟨r, hx⟩
    · rw [hothers r hrp]
      exact h.nodup r
  · rcases (hmem r x).mp hr with hr | ⟨rfl, rfl⟩
    · rcases (hmem s x).mp hs with hs | ⟨rfl, rfl⟩
      · exact h.unique r s x hr hs
      · exact absurd ⟨r, hr⟩ hnew
    · rcases (hmem s x).mp hs with hs | ⟨rfl, -⟩
      · exact absurd ⟨s, hs⟩ hnew
      · rfl
  · rintro ⟨r, hr⟩
    rcases (hmem r x).mp hr with hr | ⟨-, rfl⟩
    · exact .inl ⟨r, hr⟩
    · exact .inr rfl
  · rintro (⟨r, hr⟩ | rfl)
    · exact ⟨r, (hmem r x).mpr (.inl hr)⟩
    · exact ⟨p, (hmem p x).mpr (.inr ⟨rfl, rfl⟩)⟩

end Placement
