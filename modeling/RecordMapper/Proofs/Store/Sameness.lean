import RecordMapper.Proofs.Hydration.Firsts
import RecordMapper.Proofs.Number.Patterns
import RecordMapper.Store.Reading

namespace RecordMapper.Store

open RecordMapper.Number RecordMapper.Text

section Bytes

theorem toList_loop (bytes : ByteArray) (i : Nat) (before : List UInt8) :
    ByteArray.toList.loop bytes i before = before.reverse ++ bytes.data.toList.drop i := by
  fun_induction ByteArray.toList.loop bytes i before with
  | case1 i before inside ih =>
    have here : bytes.data.toList.drop i = bytes.get! i :: bytes.data.toList.drop (i + 1) := by
      rw [List.drop_eq_getElem_cons (show i < bytes.data.toList.length from inside)]
      simp [ByteArray.get!, inside]
    rw [ih, here, List.reverse_cons, List.append_assoc, List.singleton_append]
  | case2 i before outside =>
    have none : bytes.data.toList.drop i = [] := List.drop_eq_nil_of_le (Nat.le_of_not_lt outside)
    rw [none, List.append_nil]

theorem utf8Bytes_inj {s t : String} (same : utf8Bytes s = utf8Bytes t) : s = t := by
  have bytes : s.toUTF8.data.toList = t.toUTF8.data.toList := by
    simpa [utf8Bytes, ByteArray.toList, toList_loop] using same
  have arrays : s.toUTF8 = t.toUTF8 := ByteArray.ext (Array.toList_inj.1 bytes)
  exact String.toByteArray_inj.1 arrays

theorem compareBytes_self (bytes : List UInt8) : compareBytes bytes bytes = .eq := by
  induction bytes with
  | nil => rfl
  | cons b bytes ih => simp [compareBytes, ih]

theorem eq_of_compareBytes {as bs : List UInt8} (equal : compareBytes as bs = .eq) : as = bs := by
  induction as generalizing bs with
  | nil =>
    cases bs with
    | nil => rfl
    | cons b bs => cases equal
  | cons a as ih =>
    cases bs with
    | nil => cases equal
    | cons b bs =>
      rw [compareBytes] at equal
      split at equal
      · cases equal
      · rename_i notLess
        split at equal
        · cases equal
        · rename_i notMore
          have first : a = b := by
            rw [UInt8.lt_iff_toNat_lt] at notLess notMore
            apply UInt8.toNat_inj.1
            omega
          rw [first, ih equal]

end Bytes

section Values

/-- Values that are numbers if they are real, and are of one class unless one is null. -/
structure Alike (a b : Value) : Prop where
  first : admitted a = a
  second : admitted b = b
  classes : a ≠ .null → b ≠ .null → a.storageClass = b.storageClass

theorem read_of_admitted {x : Binary64} (given : admitted (.real x) = .real x) : x.read ≠ .notANumber := by
  intro none
  simp [admitted, Binary64.isNaN, none] at given

theorem normal_eq_null {v : Value} : v.normal = .null ↔ v = .null := by
  cases v <;> simp [Value.normal]

theorem sameValue_of_normal {a b : Value} (same : a.normal = b.normal) : sameValue a b = true := by
  unfold sameValue
  cases a with
  | real x =>
    cases b with
    | real y =>
      simp only [Value.normal, Value.real.injEq, Binary64.mk.injEq] at same
      simp [compareValues, Binary64.compare?_of_key same]
    | null | integer | text | blob => cases same
  | null | integer | text | blob =>
    cases b with
    | real y => cases same
    | null | integer | text | blob =>
      cases same
      try simp [compareValues, compareBytes_self]
      try rfl

theorem Alike.normal_of_sameValue {a b : Value} (alike : Alike a b) (same : sameValue a b = true) :
    a.normal = b.normal := by
  have equal : compareValues a b = .eq := by simpa [sameValue] using same
  by_cases null : a = .null
  · subst null
    cases b with
    | null => rfl
    | integer | real | text | blob => cases equal
  · by_cases null' : b = .null
    · subst null'
      cases a <;> cases equal
      rfl
    · have classes := alike.classes null null'
      cases a with
      | null => exact absurd rfl null
      | integer m =>
        cases b with
        | integer n =>
          have whole : m = n := Int64.toInt_inj.1 (by simpa [compareValues] using equal)
          rw [whole]
        | null | real | text | blob => cases classes
      | real x =>
        cases b with
        | real y =>
          have key := Binary64.key_of_compare? (read_of_admitted alike.first) (read_of_admitted alike.second) equal
          rw [Value.normal, Value.normal, key]
        | null | integer | text | blob => cases classes
      | text s =>
        cases b with
        | text t => rw [utf8Bytes_inj (eq_of_compareBytes equal)]
        | null | integer | real | blob => cases classes
      | blob s =>
        cases b with
        | blob t => rw [eq_of_compareBytes equal]
        | null | integer | real | text => cases classes

theorem sameValues_of_normal {as bs : List Value} (same : as.map Value.normal = bs.map Value.normal) :
    sameValues as bs = true := by
  induction as generalizing bs with
  | nil =>
    obtain rfl := List.map_eq_nil_iff.1 same.symm
    rfl
  | cons a as ih =>
    cases bs with
    | nil => cases same
    | cons b bs =>
      obtain ⟨first, rest⟩ := List.cons.inj same
      rw [sameValues, sameValue_of_normal first, ih rest]
      rfl

theorem normal_of_sameValues {as bs : List Value} (alike : List.Forall₂ Alike as bs)
    (same : sameValues as bs = true) : as.map Value.normal = bs.map Value.normal := by
  induction alike with
  | nil => rfl
  | cons first rest ih =>
    rw [sameValues, Bool.and_eq_true] at same
    rw [List.map_cons, List.map_cons, first.normal_of_sameValue same.1, ih same.2]

end Values

section Distinct

variable {κ : Type} {key : List Value → κ} {rows : List (List Value)}

theorem mem_of_mem_distinctRows {row : List Value} (member : row ∈ distinctRows rows) : row ∈ rows := by
  induction rows with
  | nil => cases member
  | cons first rows ih =>
    rcases List.mem_cons.1 member with rfl | later
    · exact List.mem_cons_self
    · exact List.mem_cons_of_mem _ (ih (List.mem_filter.1 later).1)

theorem mem_keys_distinctRows (agree : ∀ a ∈ rows, ∀ b ∈ rows, sameValues a b = true ↔ key a = key b) (k : κ) :
    k ∈ (distinctRows rows).map key ↔ k ∈ rows.map key := by
  induction rows with
  | nil => rfl
  | cons first rows ih =>
    have others := ih fun a known b known' =>
      agree a (List.mem_cons_of_mem _ known) b (List.mem_cons_of_mem _ known')
    rw [distinctRows, List.map_cons, List.map_cons, List.mem_cons, List.mem_cons]
    by_cases here : k = key first
    · simp only [here, true_or]
    · simp only [here, false_or]
      rw [← others, List.mem_map, List.mem_map]
      refine exists_congr fun row => and_congr_left fun same => ?_
      rw [List.mem_filter, and_iff_left_iff_imp]
      intro kept
      have known := mem_of_mem_distinctRows kept
      rw [Bool.not_eq_true', Bool.eq_false_iff, ne_eq, agree first List.mem_cons_self row (List.mem_cons_of_mem _ known)]
      exact fun equal => here (same.symm.trans equal.symm)

theorem nodup_keys_distinctRows (agree : ∀ a ∈ rows, ∀ b ∈ rows, sameValues a b = true ↔ key a = key b) :
    ((distinctRows rows).map key).Nodup := by
  induction rows with
  | nil => exact List.nodup_nil
  | cons first rows ih =>
    have others := ih fun a known b known' =>
      agree a (List.mem_cons_of_mem _ known) b (List.mem_cons_of_mem _ known')
    rw [distinctRows, List.map_cons, List.nodup_cons]
    constructor
    · intro member
      obtain ⟨row, kept, same⟩ := List.mem_map.1 member
      obtain ⟨kept, apart⟩ := List.mem_filter.1 kept
      have known := mem_of_mem_distinctRows kept
      rw [(agree first List.mem_cons_self row (List.mem_cons_of_mem _ known)).2 same.symm] at apart
      cases apart
    · exact others.sublist (List.filter_sublist.map key)

theorem length_distinctRows [DecidableEq κ]
    (agree : ∀ a ∈ rows, ∀ b ∈ rows, sameValues a b = true ↔ key a = key b) :
    (distinctRows rows).length = (rows.map key).dedup.length :=
  length_eq_dedup key (nodup_keys_distinctRows agree) (mem_keys_distinctRows agree)

end Distinct

end RecordMapper.Store
