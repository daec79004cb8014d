import Mathlib.Data.List.AList
import Mathlib.Tactic

/-!
# JSON values and what they keep of a string

A string is a list of bytes, and JSON text is UTF-8. So an encoder that is given other bytes has to
replace them: each byte that does not belong to the encoding of a character becomes U+FFFD. What is
read back is the string with these bytes replaced (`Utf8.toValid`), and this is the string itself
exactly if it is valid UTF-8 (`Utf8.toValid_eq_self_iff`).

* `Utf8.decodeRune` — the character at the head of a string, by the ranges of its first two bytes.
* `Json.Encoding` — a way to write the values of a type as JSON and to read them back, together with
  the value that is read (`clean`). There is one for strings, numbers, lists, maps and pointers.
* `Json.Encoding.lookup_clean_map_iff` — a map is read back as it was exactly if its keys are valid
  and its values are read back as they were.
-/

abbrev Bytes := List UInt8

/-! ## UTF-8 -/

namespace Utf8

def isTail (b : UInt8) : Bool := 0x80 ≤ b && b ≤ 0xBF

/-- What the first byte of a character says: how many bytes follow, and the range of the next. -/
def first (b : UInt8) : Option (ℕ × UInt8 × UInt8) :=
  if b ≤ 0x7F then some (0, 0, 0)
  else if 0xC2 ≤ b ∧ b ≤ 0xDF then some (1, 0x80, 0xBF)
  else if b = 0xE0 then some (2, 0xA0, 0xBF)
  else if 0xE1 ≤ b ∧ b ≤ 0xEC then some (2, 0x80, 0xBF)
  else if b = 0xED then some (2, 0x80, 0x9F)
  else if 0xEE ≤ b ∧ b ≤ 0xEF then some (2, 0x80, 0xBF)
  else if b = 0xF0 then some (3, 0x90, 0xBF)
  else if 0xF1 ≤ b ∧ b ≤ 0xF3 then some (3, 0x80, 0xBF)
  else if b = 0xF4 then some (3, 0x80, 0x8F)
  else none

/-- The bytes that follow the first byte of a character are as many as they should be, and in their
ranges. -/
def isRest : ℕ × UInt8 × UInt8 → Bytes → Bool
  | (0, _, _), _ => true
  | (n + 1, low, high), b :: bs =>
    low ≤ b && b ≤ high && decide (n ≤ bs.length) && (bs.take n).all isTail
  | (_ + 1, _, _), [] => false

/-- How many bytes follow the first byte `b` of the character at the head of `b :: bs`; `none` if
there is no character. -/
def decodeRune (b : UInt8) (bs : Bytes) : Option ℕ :=
  (first b).bind fun r => if isRest r bs then some r.1 else none

/-- The string with the bytes that belong to no character replaced, after `n` more bytes of the
present character. -/
def toValidFrom : ℕ → Bytes → Bytes
  | _, [] => []
  | n + 1, b :: bs => b :: toValidFrom n bs
  | 0, b :: bs =>
    match decodeRune b bs with
    | some n => b :: toValidFrom n bs
    | none => 0xEF :: 0xBF :: 0xBD :: toValidFrom 0 bs

/-- The string with every byte that belongs to no character replaced by U+FFFD. -/
def toValid (bs : Bytes) : Bytes := toValidFrom 0 bs

def isValidFrom : ℕ → Bytes → Bool
  | _, [] => true
  | n + 1, _ :: bs => isValidFrom n bs
  | 0, b :: bs =>
    match decodeRune b bs with
    | some n => isValidFrom n bs
    | none => false

/-- The string is a sequence of characters. -/
def isValid (bs : Bytes) : Bool := isValidFrom 0 bs

variable {bs : Bytes} {n : ℕ} {r : ℕ × UInt8 × UInt8}

attribute [local simp] toValidFrom isValidFrom in
theorem toValidFrom_of_isValidFrom (h : isValidFrom n bs = true) :
    toValidFrom n bs = bs := by
  induction bs generalizing n with
  | nil => cases n <;> rfl
  | cons b bs ih =>
    cases n with
    | succ n => simp [ih h]
    | zero =>
      cases hrune : decodeRune b bs with
      | none => simp [hrune] at h
      | some n =>
        simp only [isValidFrom, hrune] at h
        simp [hrune, ih h]

theorem length_le_toValidFrom (bs : Bytes) (n : ℕ) : bs.length ≤ (toValidFrom n bs).length := by
  induction bs generalizing n with
  | nil => exact Nat.zero_le _
  | cons b bs ih =>
    cases n with
    | succ n =>
      simp only [toValidFrom, List.length_cons]
      exact Nat.succ_le_succ (ih n)
    | zero =>
      cases hrune : decodeRune b bs with
      | none =>
        simp only [toValidFrom, hrune, List.length_cons]
        have := ih 0
        omega
      | some n =>
        simp only [toValidFrom, hrune, List.length_cons]
        exact Nat.succ_le_succ (ih n)

theorem length_lt_toValidFrom (h : isValidFrom n bs = false) :
    bs.length < (toValidFrom n bs).length := by
  induction bs generalizing n with
  | nil => cases n <;> cases h
  | cons b bs ih =>
    cases n with
    | succ n =>
      simp only [toValidFrom, List.length_cons]
      exact Nat.succ_lt_succ (ih h)
    | zero =>
      cases hrune : decodeRune b bs with
      | none =>
        simp only [toValidFrom, hrune, List.length_cons]
        have := length_le_toValidFrom bs 0
        omega
      | some n =>
        simp only [isValidFrom, hrune] at h
        simp only [toValidFrom, hrune, List.length_cons]
        exact Nat.succ_lt_succ (ih h)

/-- **What is read back is the string exactly if the string is valid.** -/
theorem toValid_eq_self_iff : toValid bs = bs ↔ isValid bs = true := by
  refine ⟨fun h => ?_, toValidFrom_of_isValidFrom⟩
  by_contra hvalid
  have hlt := length_lt_toValidFrom (Bool.eq_false_iff.2 hvalid)
  rw [show toValidFrom 0 bs = bs from h] at hlt
  exact Nat.lt_irrefl _ hlt

/-! ### The result is valid -/

theorem take_toValidFrom (h : n ≤ bs.length) :
    (toValidFrom n bs).take n = bs.take n := by
  induction bs generalizing n with
  | nil =>
    obtain rfl : n = 0 := by simpa using h
    rfl
  | cons b bs ih =>
    cases n with
    | zero => simp
    | succ n =>
      have hn : n ≤ bs.length := by simpa using h
      simp only [toValidFrom, List.take_succ_cons, ih hn]

/-- Whether the rest of a character is there depends on as many bytes as it has. -/
theorem isRest_congr {bs bs' : Bytes} (h : isRest r bs = true)
    (htake : bs'.take r.1 = bs.take r.1) : isRest r bs' = true := by
  obtain ⟨n, low, high⟩ := r
  cases n with
  | zero => rfl
  | succ n =>
    cases bs with
    | nil => cases h
    | cons b bs =>
      cases bs' with
      | nil => simp at htake
      | cons b' bs' =>
        simp only [List.take_succ_cons, List.cons.injEq] at htake
        obtain ⟨rfl, htake⟩ := htake
        simp only [isRest, Bool.and_eq_true, decide_eq_true_eq] at h ⊢
        obtain ⟨⟨hrange, hlength⟩, htail⟩ := h
        have hlength' := congrArg List.length htake
        simp only [List.length_take] at hlength'
        refine ⟨⟨hrange, by omega⟩, ?_⟩
        rw [htake]
        exact htail

theorem length_of_isRest (h : isRest r bs = true) :
    r.1 ≤ bs.length := by
  obtain ⟨n, low, high⟩ := r
  cases n with
  | zero => exact Nat.zero_le _
  | succ n =>
    cases bs with
    | nil => cases h
    | cons b bs =>
      simp only [isRest, Bool.and_eq_true, decide_eq_true_eq] at h
      exact Nat.succ_le_succ h.1.2

theorem decodeRune_eq_some {b : UInt8} :
    decodeRune b bs = some n ↔ ∃ r, first b = some r ∧ isRest r bs = true ∧ r.1 = n := by
  unfold decodeRune
  cases first b with
  | none => simp
  | some r => by_cases hrest : isRest r bs = true <;> simp [hrest]

theorem isValidFrom_toValidFrom (bs : Bytes) (n : ℕ) (h : n ≤ bs.length) :
    isValidFrom n (toValidFrom n bs) = true := by
  induction bs generalizing n with
  | nil =>
    obtain rfl : n = 0 := by simpa using h
    rfl
  | cons b bs ih =>
    cases n with
    | succ n => exact ih n (by simpa using h)
    | zero =>
      cases hrune : decodeRune b bs with
      | none =>
        simp only [toValidFrom, hrune]
        -- U+FFFD is a character, and the next one starts after it
        have hfffd : ∀ t : Bytes, decodeRune 0xEF (0xBF :: 0xBD :: t) = some 2 := by
          intro t
          have hrest : isRest (2, 0x80, 0xBF) [0xBF, 0xBD] = true := by decide
          exact decodeRune_eq_some.2 ⟨(2, 0x80, 0xBF), by decide, isRest_congr hrest (by simp), rfl⟩
        simp only [isValidFrom, hfffd]
        exact ih 0 (Nat.zero_le _)
      | some n =>
        obtain ⟨r, hfirst, hrest, rfl⟩ := decodeRune_eq_some.1 hrune
        have hlength := length_of_isRest hrest
        have hrune' : decodeRune b (toValidFrom r.1 bs) = some r.1 :=
          decodeRune_eq_some.2 ⟨r, hfirst, isRest_congr hrest (take_toValidFrom hlength), rfl⟩
        simp only [toValidFrom, hrune, isValidFrom, hrune']
        exact ih r.1 hlength

theorem isValid_toValid (bs : Bytes) : isValid (toValid bs) = true :=
  isValidFrom_toValidFrom bs 0 (Nat.zero_le _)

end Utf8

/-! ## Values -/

/-- JSON values. The members of an object are the fields of a struct or the entries of a map. -/
inductive Json
  | null
  | bool (b : Bool)
  | num (n : ℤ)
  | str (s : Bytes)
  | arr (xs : List Json)
  | struct (fields : List (String × Json))
  | map (entries : List (Bytes × Json))

namespace Json

/-- A way to write the values of a type and to read them back. What is read is the value with its
strings made valid. -/
structure Encoding (α : Type) where
  marshal : α → Json
  unmarshal : Json → Option α
  clean : α → α
  unmarshal_marshal : ∀ x, unmarshal (marshal x) = some (clean x)

/-- The field of a struct; where it is missing, the zero value is left. -/
def field {α : Type} (fields : List (String × Json)) (name : String) (E : Encoding α) (zero : α) :
    Option α :=
  match fields.lookup name with
  | some v => E.unmarshal v
  | none => some zero

@[simp] theorem field_cons_self {α : Type} {fields : List (String × Json)} {name : String}
    {E : Encoding α} {zero x : α} :
    field ((name, E.marshal x) :: fields) name E zero = some (E.clean x) := by
  rw [field, List.lookup_cons_self]
  exact E.unmarshal_marshal x

@[simp] theorem field_cons_of_ne {α : Type} {fields : List (String × Json)} {name name' : String}
    {E : Encoding α} {zero : α} {v : Json} (h : name ≠ name') :
    field ((name', v) :: fields) name E zero = field fields name E zero := by
  rw [field, field, List.lookup_cons, beq_false_of_ne h]

namespace Encoding

variable {α : Type}

def ofBool : Encoding Bool where
  marshal := .bool
  unmarshal
    | .bool b => some b
    | _ => none
  clean := id
  unmarshal_marshal _ := rfl

def ofInt : Encoding ℤ where
  marshal := .num
  unmarshal
    | .num n => some n
    | _ => none
  clean := id
  unmarshal_marshal _ := rfl

def ofBytes : Encoding Bytes where
  marshal s := .str (Utf8.toValid s)
  unmarshal
    | .str s => some s
    | _ => none
  clean := Utf8.toValid
  unmarshal_marshal _ := rfl

theorem mapM_unmarshal_marshal (E : Encoding α) (xs : List α) :
    (xs.map E.marshal).mapM E.unmarshal = some (xs.map E.clean) := by
  induction xs with
  | nil => rfl
  | cons x xs ih =>
    rw [List.map_cons, List.mapM_cons, ih, E.unmarshal_marshal]
    rfl

def list (E : Encoding α) : Encoding (List α) where
  marshal xs := .arr (xs.map E.marshal)
  unmarshal
    | .arr xs => xs.mapM E.unmarshal
    | _ => none
  clean xs := xs.map E.clean
  unmarshal_marshal xs := E.mapM_unmarshal_marshal xs

/-- A pointer to a value that is never written as `null`. -/
def ptr (E : Encoding α) (hnull : ∀ x, E.marshal x ≠ .null) : Encoding (Option α) where
  marshal
    | none => .null
    | some x => E.marshal x
  unmarshal
    | .null => some none
    | v => (E.unmarshal v).map some
  clean := Option.map E.clean
  unmarshal_marshal x := by
    cases x with
    | none => rfl
    | some x =>
      have hread := E.unmarshal_marshal x
      cases hv : E.marshal x with
      | null => exact absurd hv (hnull x)
      | _ =>
        rw [hv] at hread
        simp only [hv, hread, Option.map_some]

/-! ### Maps -/

/-- The entries of a map in the order of their keys. -/
def entriesInOrder (m : AList fun _ : Bytes => α) : List (Bytes × α) :=
  (m.entries.map fun e => (e.1, e.2)).mergeSort fun e e' => decide (e.1 ≤ e'.1)

/-- Entries are read into a map one after the other. -/
def insertAll (entries : List (Bytes × α)) : AList fun _ : Bytes => α :=
  entries.foldl (fun m e => m.insert e.1 e.2) ∅

def map (E : Encoding α) : Encoding (AList fun _ : Bytes => α) where
  marshal m := .map ((entriesInOrder m).map fun e => (Utf8.toValid e.1, E.marshal e.2))
  unmarshal
    | .map entries => (entries.mapM fun e => (E.unmarshal e.2).map (Prod.mk e.1)).map insertAll
    | _ => none
  clean m := insertAll ((entriesInOrder m).map fun e => (Utf8.toValid e.1, E.clean e.2))
  unmarshal_marshal m := by
    have hread : ∀ entries : List (Bytes × α),
        ((entries.map fun e => (Utf8.toValid e.1, E.marshal e.2)).mapM fun e =>
          (E.unmarshal e.2).map (Prod.mk e.1)) =
        some (entries.map fun e => (Utf8.toValid e.1, E.clean e.2)) := by
      intro entries
      induction entries with
      | nil => rfl
      | cons e entries ih =>
        rw [List.map_cons, List.mapM_cons, ih, E.unmarshal_marshal]
        rfl
    change Option.map _ _ = _
    rw [hread]
    rfl

variable {m : AList fun _ : Bytes => α} {k : Bytes} {v : α} {entries : List (Bytes × α)}
  {E : Encoding α}

theorem mem_entriesInOrder :
    (k, v) ∈ entriesInOrder m ↔ m.lookup k = some v := by
  have hentry : (k, v) ∈ m.entries.map (fun e => (e.1, e.2)) ↔ (⟨k, v⟩ : Sigma _) ∈ m.entries := by
    refine ⟨fun h => ?_, fun h => List.mem_map.2 ⟨⟨k, v⟩, h, rfl⟩⟩
    obtain ⟨⟨k', v'⟩, hmem, heq⟩ := List.mem_map.1 h
    cases heq
    exact hmem
  rw [entriesInOrder, List.mem_mergeSort, hentry, ← AList.mem_lookup_iff, Option.mem_def]

theorem nodup_entriesInOrder (m : AList fun _ : Bytes => α) :
    ((entriesInOrder m).map Prod.fst).Nodup := by
  have hperm := (List.mergeSort_perm (m.entries.map fun e => (e.1, e.2))
    fun e e' => decide (e.1 ≤ e'.1)).map Prod.fst
  refine hperm.nodup_iff.2 ?_
  rw [List.map_map]
  exact m.nodupKeys

theorem mem_of_lookup_foldl_insert
    (h : (entries.foldl (fun m e => m.insert e.1 e.2) m).lookup k = some v) :
    (k, v) ∈ entries ∨ m.lookup k = some v := by
  induction entries generalizing m with
  | nil => exact .inr h
  | cons e entries ih =>
    rcases ih h with hmem | hm
    · exact .inl (List.mem_cons_of_mem _ hmem)
    · by_cases hk : k = e.1
      · subst hk
        rw [AList.lookup_insert] at hm
        cases hm
        exact .inl List.mem_cons_self
      · rw [AList.lookup_insert_ne hk] at hm
        exact .inr hm

/-- Entries with different keys are all kept. -/
theorem lookup_foldl_insert_of_mem (hnodup : (entries.map Prod.fst).Nodup)
    (h : (k, v) ∈ entries ∨ (k ∉ entries.map Prod.fst ∧ m.lookup k = some v)) :
    (entries.foldl (fun m e => m.insert e.1 e.2) m).lookup k = some v := by
  induction entries generalizing m with
  | nil =>
    rcases h with h | h
    · cases h
    · exact h.2
  | cons e entries ih =>
    rw [List.map_cons, List.nodup_cons] at hnodup
    refine ih hnodup.2 ?_
    rcases h with h | ⟨hk, hm⟩
    · rcases List.mem_cons.1 h with rfl | hmem
      · exact .inr ⟨hnodup.1, AList.lookup_insert _⟩
      · exact .inl hmem
    · rw [List.map_cons, List.mem_cons, not_or] at hk
      exact .inr ⟨hk.2, by rw [AList.lookup_insert_ne hk.1, hm]⟩

theorem lookup_insertAll (hnodup : (entries.map Prod.fst).Nodup) :
    (insertAll entries).lookup k = some v ↔ (k, v) ∈ entries := by
  refine ⟨fun h => ?_, fun h => lookup_foldl_insert_of_mem hnodup (.inl h)⟩
  rcases mem_of_lookup_foldl_insert h with hmem | hm
  · exact hmem
  · cases hm

theorem isValid_of_lookup_clean (h : (E.map.clean m).lookup k = some v) :
    Utf8.isValid k = true := by
  rcases mem_of_lookup_foldl_insert h with hmem | hm
  · obtain ⟨e, -, he⟩ := List.mem_map.1 hmem
    cases he
    exact Utf8.isValid_toValid _
  · cases hm

/-- Where all keys are valid, only the values change. -/
theorem lookup_clean_map (hvalid : ∀ k v, m.lookup k = some v → Utf8.isValid k = true) (k : Bytes) :
    (E.map.clean m).lookup k = (m.lookup k).map E.clean := by
  have hclean : (entriesInOrder m).map (fun e => (Utf8.toValid e.1, E.clean e.2)) =
      (entriesInOrder m).map fun e => (e.1, E.clean e.2) := by
    refine List.map_congr_left fun e he => ?_
    rw [Utf8.toValid_eq_self_iff.2 (hvalid e.1 e.2 (mem_entriesInOrder.1 he))]
  have hnodup : (((entriesInOrder m).map fun e => (e.1, E.clean e.2)).map Prod.fst).Nodup := by
    rw [List.map_map]
    exact nodup_entriesInOrder m
  apply Option.ext
  intro v
  change (insertAll _).lookup k = some v ↔ _
  rw [hclean, lookup_insertAll hnodup, List.mem_map, Option.map_eq_some_iff]
  constructor
  · intro h
    obtain ⟨e, he, heq⟩ := h
    cases heq
    exact ⟨e.2, mem_entriesInOrder.1 he, rfl⟩
  · intro h
    obtain ⟨v', hv', heq⟩ := h
    exact ⟨(k, v'), mem_entriesInOrder.2 hv', by rw [heq]⟩

/-- **A map is read back as it was** exactly if its keys are valid and its values are read back as
they were. -/
theorem lookup_clean_map_iff :
    (∀ k, (E.map.clean m).lookup k = m.lookup k) ↔
      ∀ k v, m.lookup k = some v → Utf8.isValid k = true ∧ E.clean v = v := by
  constructor
  · intro h
    have hvalid : ∀ k v, m.lookup k = some v → Utf8.isValid k = true := fun k v hk =>
      isValid_of_lookup_clean ((h k).trans hk)
    intro k v hk
    refine ⟨hvalid k v hk, ?_⟩
    have hread := h k
    rw [lookup_clean_map hvalid, hk] at hread
    exact Option.some.inj hread
  · intro h k
    rw [lookup_clean_map fun k v hk => (h k v hk).1]
    cases hk : m.lookup k with
    | none => rfl
    | some v => rw [Option.map_some, (h k v hk).2]

theorem clean_list_eq_self_iff {xs : List α} :
    E.list.clean xs = xs ↔ ∀ x ∈ xs, E.clean x = x := by
  change xs.map E.clean = xs ↔ _
  induction xs with
  | nil => simp
  | cons x xs ih => simp [ih]

end Encoding

end Json
