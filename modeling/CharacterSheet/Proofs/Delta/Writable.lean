import CharacterSheet.Proofs.DataCode.FailSoft
import Mathlib

/-!
# Numbers that are kept as they are read

Abilities and gated effects are ordered by written forms, and an integer of too many digits cannot
be written.  Energies and gated values are never added up: each of them is one number of a code, and
a number with too many digits is not converted.  So the view of every delta that comes from reading
and merging can be formed.
-/

namespace CharacterSheet

namespace Integer

theorem digitValue_lt {d : Char} (h : isDigit d = true) : digitValue d < 10 := by
  simp only [isDigit, Bool.and_eq_true, decide_eq_true_eq, Char.le_def, UInt32.le_iff_toNat_le]
    at h
  have hd : d.val.toNat = d.toNat := rfl
  have h0 : '0'.val.toNat = 48 := rfl
  have h9 : '9'.val.toNat = 57 := rfl
  have hzero : '0'.toNat = 48 := rfl
  rw [digitValue, hzero]
  omega

theorem ofDigits_eq (ds : List Char) :
    ofDigits ds = Nat.ofDigits 10 (ds.reverse.map digitValue) := by
  rw [ofDigits, Nat.ofDigits_eq_foldr, List.foldr_map, List.foldr_reverse]
  simp only [Nat.cast_id, Nat.add_comm]

theorem ofDigits_lt {ds : List Char} (h : ∀ d ∈ ds, isDigit d = true) :
    ofDigits ds < 10 ^ ds.length := by
  have hdigits : ∀ n ∈ ds.reverse.map digitValue, n < 10 := by
    intro n hn
    obtain ⟨d, hd, rfl⟩ := List.mem_map.1 hn
    exact digitValue_lt (h d (List.mem_reverse.1 hd))
  have hlt := Nat.ofDigits_lt_base_pow_length (by decide : 1 < 10) hdigits
  rwa [← ofDigits_eq, List.length_map, List.length_reverse] at hlt

/-- An integer that has few enough digits to be written. -/
def IsWritable (n : Int) : Prop := n.natAbs < 10 ^ SourceError.digitLimit

theorem isWritable_withSign {ds : List Char} (h : ∀ d ∈ ds, isDigit d = true)
    (hshort : ds.length ≤ SourceError.digitLimit) (negative : Bool) :
    IsWritable (withSign negative (ofDigits ds)) := by
  have habs : (withSign negative (ofDigits ds)).natAbs = ofDigits ds := by
    cases negative <;> simp [withSign]
  have hlimit := Nat.pow_le_pow_right (n := 10) (by decide) hshort
  rw [IsWritable, habs]
  exact Nat.lt_of_lt_of_le (ofDigits_lt h) hlimit

end Integer

open Integer (IsWritable)

/-! ## Contributions -/

namespace DataCode

/-- The numbers of a contribution that are kept in lists can be written. -/
def Contribution.Writable : Contribution → Prop
  | .skill _ n => IsWritable n
  | .mitigation _ n => IsWritable n
  | .ability a => IsWritable a.energy
  | .gated _ effects => ∀ e ∈ effects, IsWritable e.value
  | _ => True

variable {token : List Char} {c : Contribution}

theorem Plain.writable (h : Plain token c) (hshort : Short token) : c.Writable := by
  cases h with
  | @numbered head f n hhead hdigits =>
    have hn : IsWritable n.toInt :=
      Integer.isWritable_withSign hdigits.2 (hshort _ (.numbered hhead hdigits)) n.negative
    cases hhead with
    | skillValue => exact hn
    | mitigation => exact hn
    | _ => trivial
  | ability hkind hdaily hmagical hdigits =>
    have hlength := hshort _ (.ability hkind hdaily hmagical hdigits)
    exact Integer.isWritable_withSign hdigits.2 hlength false
  | _ => trivial

theorem writable_of_readSimple (h : (readSimple token).result = .ok c) : c.Writable := by
  have hshort := short_of_readSimple h
  rcases hshort.ending with ⟨c', hplain, hread⟩ | ⟨f, -, hread⟩
  · rw [hread] at h
    obtain rfl := Except.ok.inj h
    exact hplain.writable hshort
  · rw [hread] at h
    obtain rfl := Except.ok.inj h
    trivial

theorem writable_of_readToken (h : (readToken token).result = .ok c) : c.Writable := by
  unfold readToken at h
  split at h
  · next shape hshape =>
    unfold readGate at h
    split at h
    · obtain rfl := Except.ok.inj h
      trivial
    · next gate hgate =>
      obtain ⟨es, hes, rfl⟩ := Reading.map_result_eq_ok_iff.1 h
      intro e he
      obtain ⟨p, -, c, hc, -, ⟨-, rfl⟩ | ⟨-, rfl⟩⟩ := exists_piece_of_mem hes he
      · exact writable_of_readSimple hc
      · exact writable_of_readSimple hc
  · exact writable_of_readSimple h

end DataCode

/-! ## Deltas -/

namespace Delta

variable {a b d e : Delta}

/-- The numbers in the written forms of a delta can be written. -/
structure Writable (d : Delta) : Prop where
  abilities : ∀ ability ∈ d.abilities, IsWritable ability.energy
  effects : ∀ gate, ∀ effect ∈ d.gated.getD gate [], IsWritable effect.value

theorem writable_empty : empty.Writable where
  abilities := fun _ h ↦ absurd h List.not_mem_nil
  effects := by
    intro gate effect h
    rw [gated_empty] at h
    cases h

theorem Writable.add (hd : d.Writable) {c : DataCode.Contribution} (hc : c.Writable) :
    (d.add c).Writable := by
  cases c with
  | ability ability =>
    refine ⟨?_, hd.effects⟩
    intro ability' h
    rcases List.mem_append.1 h with h | h
    · exact hd.abilities ability' h
    · rw [List.mem_singleton.1 h]
      exact hc
  | gated gate effects =>
    refine ⟨hd.abilities, ?_⟩
    intro gate' effect h
    have h : effect ∈ (d.gated.update gate.name [] (· ++ effects)).getD gate' [] := h
    rw [Table.getD, Table.get?_update] at h
    split at h
    · rcases List.mem_append.1 h with h | h
      · exact hd.effects _ effect h
      · exact hc effect h
    · exact hd.effects gate' effect h
  | special branch => cases branch <;> exact ⟨hd.abilities, hd.effects⟩
  | _ => exact ⟨hd.abilities, hd.effects⟩

theorem Writable.absorb (hd : d.Writable) (he : e.Writable) : (d.absorb e).Writable where
  abilities := by
    intro ability h
    rcases List.mem_append.1 h with h | h
    · exact hd.abilities ability h
    · exact he.abilities ability h
  effects := by
    intro gate effect h
    rw [gated_absorb] at h
    rcases List.mem_append.1 h with h | h
    · exact hd.effects gate effect h
    · exact he.effects gate effect h

theorem writable_of_readTokens (hd : d.Writable) {ts : List (List Char)}
    (h : (DataCode.readTokens d ts).result = .ok e) : e.Writable := by
  induction ts generalizing d with
  | nil =>
    obtain rfl := Except.ok.inj h
    exact hd
  | cons t ts ih =>
    obtain ⟨c, hc, h⟩ := DataCode.Reading.andThen_result_eq_ok_iff.1 h
    exact ih (hd.add (DataCode.writable_of_readToken hc)) h

/-- Whatever is read and merged, the numbers in its written forms can be written. -/
theorem Produced.writable (h : d.Produced) : d.Writable := by
  induction h with
  | read h => exact writable_of_readTokens writable_empty h
  | merge _ _ iha ihb => exact (writable_empty.absorb iha).absorb ihb

end Delta

end CharacterSheet
