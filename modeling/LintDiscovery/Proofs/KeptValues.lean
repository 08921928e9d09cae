/-
What the reader of values keeps.

A value that was read has brackets nested below the level it was read at, whole numbers that fit,
and objects in which no key is twice. `Kept levels v` says so of a value `v`, and
`kept_of_readValue` that it holds of whatever is read with that many levels, from any text.

The induction is on the number of rounds, for values, the items behind a bracket and the fields
behind a brace at once. What it carries for the last two is that the members already read are kept.
-/
import LintDiscovery.Json.Reader
import LintDiscovery.Proofs.LiteralReadBack

namespace LintDiscovery

theorem exists_of_bind_ok {ε α β : Type} {x : Except ε α} {f : α → Except ε β} {b : β}
    (h : x >>= f = .ok b) : ∃ a, x = .ok a ∧ f a = .ok b := by
  cases x with
  | error e => cases h
  | ok a => exact ⟨a, rfl, h⟩

namespace Json

/-! ### Fields that are set -/

theorem insert_of_new {key : String} {fields : List (String × Json)}
    (h : key ∉ fields.map Prod.fst) (v : Json) : insert key v fields = fields ++ [(key, v)] := by
  induction fields with
  | nil => rfl
  | cons f fields ih =>
    simp only [List.map_cons, List.mem_cons, not_or] at h
    rw [insert, if_neg (Ne.symm h.1), ih h.2, List.cons_append]

theorem keys_insert_of_known {key : String} {fields : List (String × Json)}
    (h : key ∈ fields.map Prod.fst) (v : Json) :
    (insert key v fields).map Prod.fst = fields.map Prod.fst := by
  induction fields with
  | nil => cases h
  | cons f fields ih =>
    rw [insert]
    split
    · rfl
    · rename_i hne
      have hrest : key ∈ fields.map Prod.fst := (List.mem_cons.mp h).resolve_left (Ne.symm hne)
      rw [List.map_cons, List.map_cons, ih hrest]

theorem nodup_keys_insert {fields : List (String × Json)} (h : (fields.map Prod.fst).Nodup)
    (key : String) (v : Json) : ((insert key v fields).map Prod.fst).Nodup := by
  by_cases hkey : key ∈ fields.map Prod.fst
  · rwa [keys_insert_of_known hkey]
  · rw [insert_of_new hkey, List.map_append, List.map_cons, List.map_nil, List.nodup_append]
    refine ⟨h, by simp, ?_⟩
    rintro a ha _ hb rfl
    rw [List.mem_singleton.mp hb] at ha
    exact hkey ha

theorem mem_insert {key : String} {v : Json} {fields : List (String × Json)} {f : String × Json}
    (h : f ∈ insert key v fields) : f ∈ fields ∨ f.2 = v := by
  induction fields with
  | nil =>
    rw [insert, List.mem_singleton] at h
    exact .inr (h ▸ rfl)
  | cons g fields ih =>
    rw [insert] at h
    split at h
    · rcases List.mem_cons.mp h with rfl | hf
      · exact .inr rfl
      · exact .inl (List.mem_cons_of_mem g hf)
    · rcases List.mem_cons.mp h with rfl | hf
      · exact .inl List.mem_cons_self
      · exact (ih hf).imp_left (List.mem_cons_of_mem g)

/-! ### Numbers that are read -/

theorem absorb_le {limit n : Nat} (h : n ≤ limit) (ds : List Char) :
    (absorb limit n ds).1 ≤ limit := by
  induction ds generalizing n with
  | nil => exact h
  | cons d ds ih =>
    rw [absorb]
    split
    · rename_i hfits
      exact ih hfits
    · exact h

theorem inRange_of_doubleAt {c c' : Cursor} {negative : Bool} {significand : Nat} {exponent : Int}
    {n : Number} (h : doubleAt c negative significand exponent = .ok (n, c')) : InRange n := by
  unfold doubleAt at h
  split at h
  · cases h
    trivial
  · cases h

theorem inRange_of_readExponent {c c' : Cursor} {negative : Bool} {significand : Nat}
    {exponent : Int} {n : Number}
    (h : readExponent negative significand exponent c = .ok (n, c')) : InRange n := by
  unfold readExponent at h
  simp only at h
  split at h
  · cases h
  · split at h
    · split at h
      · exact inRange_of_doubleAt h
      · -- whichever sign was read, an exponent that cannot be counted out gives no whole number
        split at h
        all_goals
          split at h
          · cases h
          · cases h
            trivial
    · cases h

theorem inRange_of_readFraction {c c' : Cursor} {negative : Bool} {significand : Nat}
    {exponent : Int} {n : Number}
    (h : readFraction negative significand exponent c = .ok (n, c')) : InRange n := by
  unfold readFraction at h
  simp only at h
  split at h
  · cases h
  · split at h
    · exact inRange_of_readExponent h
    · exact inRange_of_readExponent h
    · exact inRange_of_doubleAt h

theorem inRange_of_wholeNumber {c c' : Cursor} {negative : Bool} {significand : Nat} {n : Number}
    (hfits : significand ≤ maxInteger)
    (h : wholeNumber c negative significand = .ok (n, c')) : InRange n := by
  unfold wholeNumber at h
  split at h
  · cases h
    exact ⟨by omega, by omega⟩
  · split at h
    · rename_i hleast
      cases h
      have : (0 : Int) ≤ maxInteger := by decide
      exact ⟨by omega, by omega⟩
    · exact inRange_of_doubleAt h

theorem inRange_of_readTail {c c' : Cursor} {negative : Bool} {significand extra : Nat}
    {n : Number} (hfits : significand ≤ maxInteger)
    (h : readTail negative significand extra c = .ok (n, c')) : InRange n := by
  unfold readTail at h
  split at h
  · exact inRange_of_readFraction h
  · exact inRange_of_readExponent h
  · exact inRange_of_readExponent h
  · split at h
    · exact inRange_of_wholeNumber hfits h
    · exact inRange_of_doubleAt h

theorem inRange_of_readNumber {c c' : Cursor} {negative : Bool} {n : Number}
    (h : readNumber negative c = .ok (n, c')) : InRange n := by
  have hzero : 0 ≤ maxInteger := Nat.zero_le _
  unfold readNumber at h
  split at h
  · cases h
  · simp only at h
    split at h
    · split at h
      · cases h
      · exact inRange_of_readTail hzero h
    · exact inRange_of_readTail hzero h
  · split at h
    · exact inRange_of_readTail (absorb_le hzero _) h
    · cases h

/-! ### Values that are read -/

/-- Values that can stand where so many levels of brackets are left, the last of which is never
taken: whole numbers fit, and no object has a key twice. -/
inductive Kept : Nat → Json → Prop where
  | null {levels : Nat} : Kept levels .null
  | bool {levels : Nat} {b : Bool} : Kept levels (.bool b)
  | number {levels : Nat} {n : Number} (fits : InRange n) : Kept levels (.number n)
  | string {levels : Nat} {s : String} : Kept levels (.string s)
  | array {levels : Nat} {items : List Json} (deep : 1 < levels)
      (kept : ∀ v ∈ items, Kept (levels - 1) v) : Kept levels (.array items)
  | object {levels : Nat} {fields : List (String × Json)} (deep : 1 < levels)
      (distinct : (fields.map Prod.fst).Nodup)
      (kept : ∀ f ∈ fields, Kept (levels - 1) f.2) : Kept levels (.object fields)

mutual

theorem kept_of_readValueFrom : ∀ (fuel : Nat) {levels : Nat} {c c' : Cursor} {v : Json},
    readValueFrom fuel levels c = .ok (v, c') → Kept levels v
  | 0, _, _, _, _, h => by cases h
  | fuel + 1, levels, c, c', v, h => by
    simp only [readValueFrom] at h
    split at h
    · cases h
    · obtain ⟨_, -, hv⟩ := exists_of_bind_ok h
      cases hv
      exact .null
    · obtain ⟨_, -, hv⟩ := exists_of_bind_ok h
      cases hv
      exact .bool
    · obtain ⟨_, -, hv⟩ := exists_of_bind_ok h
      cases hv
      exact .bool
    · obtain ⟨_, hn, hv⟩ := exists_of_bind_ok h
      cases hv
      exact .number (inRange_of_readNumber hn)
    · obtain ⟨_, -, hv⟩ := exists_of_bind_ok h
      cases hv
      exact .string
    · split at h
      · cases h
      · rename_i hdeep
        obtain ⟨items, rfl, hitems⟩ := kept_of_readItemsFrom fuel (by simp) h
        exact .array (by omega) hitems
    · split at h
      · cases h
      · rename_i hdeep
        obtain ⟨fields, rfl, hdistinct, hfields⟩ :=
          kept_of_readFieldsFrom fuel (by simp) (by simp) h
        exact .object (by omega) hdistinct hfields
    · split at h
      · obtain ⟨_, hn, hv⟩ := exists_of_bind_ok h
        cases hv
        exact .number (inRange_of_readNumber hn)
      · cases h

theorem kept_of_readItemsFrom : ∀ (fuel : Nat) {levels : Nat} {first : Bool} {done : List Json}
    {c c' : Cursor} {v : Json}, (∀ w ∈ done, Kept levels w) →
    readItemsFrom fuel levels first done c = .ok (v, c') →
    ∃ items, v = .array items ∧ ∀ w ∈ items, Kept levels w
  | 0, _, _, _, _, _, _, _, h => by cases h
  | fuel + 1, levels, first, done, c, c', v, hdone, h => by
    rw [readItemsFrom] at h
    split at h
    · cases h
    · cases h
      exact ⟨done.reverse, rfl, fun w hw => hdone w (List.mem_reverse.mp hw)⟩
    · split at h
      · rename_i w _ hw
        have hkept : Kept levels w := kept_of_readValueFrom fuel hw
        exact kept_of_readItemsFrom fuel (List.forall_mem_cons.mpr ⟨hkept, hdone⟩) h
      · cases h

theorem kept_of_readFieldsFrom : ∀ (fuel : Nat) {levels : Nat} {first : Bool}
    {done : List (String × Json)} {c c' : Cursor} {v : Json}, (done.map Prod.fst).Nodup →
    (∀ f ∈ done, Kept levels f.2) →
    readFieldsFrom fuel levels first done c = .ok (v, c') →
    ∃ fields, v = .object fields ∧ (fields.map Prod.fst).Nodup ∧ ∀ f ∈ fields, Kept levels f.2
  | 0, _, _, _, _, _, _, _, _, h => by cases h
  | fuel + 1, levels, first, done, c, c', v, hdistinct, hdone, h => by
    rw [readFieldsFrom] at h
    split at h
    · cases h
    · cases h
      exact ⟨done, rfl, hdistinct, hdone⟩
    · rename_i key _ _
      split at h
      · cases h
      · split at h
        · rename_i w _ hw
          have hkept : Kept levels w := kept_of_readValueFrom fuel hw
          refine kept_of_readFieldsFrom fuel (nodup_keys_insert hdistinct key w) ?_ h
          intro f hf
          rcases mem_insert hf with hf | heq
          · exact hdone f hf
          · exact heq ▸ hkept
        · cases h

end

/-- Whatever is read with so many levels can stand there. -/
theorem kept_of_readValue {levels : Nat} {c c' : Cursor} {v : Json}
    (h : readValue levels c = .ok (v, c')) : Kept levels v :=
  kept_of_readValueFrom _ h

end Json

end LintDiscovery
