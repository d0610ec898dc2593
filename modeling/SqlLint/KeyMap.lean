/-! # Maps ordered by key

A map from texts kept in the order of its keys, by code point. Main statements: `insert` binds its
key, leaves every other key alone, and keeps the order. -/

namespace SqlLint

/-- A map from texts, its entries in increasing order of the keys. -/
structure KeyMap (α : Type) where
  entries : List (String × α)
  ordered : entries.Pairwise (fun a b => a.1 < b.1)

namespace KeyMap

variable {α : Type}

def empty : KeyMap α := ⟨[], .nil⟩

/-- The entries with `key` bound to `value`, in its place. -/
def insertEntry (key : String) (value : α) : List (String × α) → List (String × α)
  | [] => [(key, value)]
  | e :: rest =>
    if key < e.1 then (key, value) :: e :: rest
    else if key = e.1 then (key, value) :: rest
    else e :: insertEntry key value rest

theorem mem_insertEntry {key : String} {value : α} {entries : List (String × α)}
    {x : String × α} (h : x ∈ insertEntry key value entries) : x.1 = key ∨ x ∈ entries := by
  induction entries with
  | nil => simp_all [insertEntry]
  | cons e rest ih =>
    rw [insertEntry] at h
    split at h
    · rcases List.mem_cons.1 h with rfl | h
      · exact .inl rfl
      · exact .inr h
    · split at h
      · rcases List.mem_cons.1 h with rfl | h
        · exact .inl rfl
        · exact .inr (List.mem_cons_of_mem _ h)
      · rcases List.mem_cons.1 h with rfl | h
        · exact .inr List.mem_cons_self
        · exact (ih h).imp_right (List.mem_cons_of_mem _)

theorem ordered_insertEntry (key : String) (value : α) {entries : List (String × α)}
    (h : entries.Pairwise (fun a b => a.1 < b.1)) :
    (insertEntry key value entries).Pairwise (fun a b => a.1 < b.1) := by
  induction entries with
  | nil => simp [insertEntry]
  | cons e rest ih =>
    have ⟨he, hr⟩ := List.pairwise_cons.1 h
    rw [insertEntry]
    split
    · rename_i hlt
      refine List.pairwise_cons.2 ⟨fun x hx => ?_, h⟩
      rcases List.mem_cons.1 hx with rfl | hx
      · exact hlt
      · exact String.lt_trans hlt (he x hx)
    · split
      · rename_i heq
        exact List.pairwise_cons.2 ⟨fun x hx => heq ▸ he x hx, hr⟩
      · rename_i hlt hne
        refine List.pairwise_cons.2 ⟨fun x hx => ?_, ih hr⟩
        rcases mem_insertEntry hx with hx | hx
        · have := String.le_total key e.1
          grind
        · exact he x hx

/-- The map with `key` bound to `value`. -/
def insert (map : KeyMap α) (key : String) (value : α) : KeyMap α :=
  ⟨insertEntry key value map.entries, ordered_insertEntry key value map.ordered⟩

/-- The map of a list of bindings; of two with one key the later counts. -/
def ofList (bindings : List (String × α)) : KeyMap α :=
  bindings.foldl (fun map b => map.insert b.1 b.2) empty

def keys (map : KeyMap α) : List String := map.entries.map Prod.fst

def isEmpty (map : KeyMap α) : Bool := map.entries.isEmpty

def get? (map : KeyMap α) (key : String) : Option α := map.entries.lookup key

/-- The value of the first key in order that satisfies the test. -/
def findKey? (map : KeyMap α) (test : String → Bool) : Option α :=
  (map.entries.find? (fun e => test e.1)).map Prod.snd

theorem perm_insertEntry {key : String} (value : α) {entries : List (String × α)}
    (h : key ∉ entries.map Prod.fst) :
    (insertEntry key value entries).Perm ((key, value) :: entries) := by
  induction entries with
  | nil => exact .refl _
  | cons e rest ih =>
    rw [List.map_cons, List.mem_cons, not_or] at h
    rw [insertEntry, if_neg h.1]
    split
    · exact .refl _
    · exact ((ih h.2).cons e).trans (.swap _ _ _)

theorem perm_foldl_insert {bindings : List (String × α)} {map : KeyMap α}
    (h : ((map.entries ++ bindings).map Prod.fst).Nodup) :
    (bindings.foldl (fun map b => map.insert b.1 b.2) map).entries.Perm
      (map.entries ++ bindings) := by
  induction bindings generalizing map with
  | nil => simp
  | cons b rest ih =>
    have hnew : b.1 ∉ map.entries.map Prod.fst := by
      rw [List.map_append, List.nodup_append] at h
      exact fun hmem => h.2.2 _ hmem _ List.mem_cons_self rfl
    have hinsert : ((map.insert b.1 b.2).entries ++ rest).Perm (map.entries ++ b :: rest) :=
      ((perm_insertEntry b.2 hnew).append_right rest).trans List.perm_middle.symm
    exact (ih ((hinsert.map Prod.fst).nodup_iff.2 h)).trans hinsert

theorem perm_ofList {bindings : List (String × α)} (h : (bindings.map Prod.fst).Nodup) :
    (ofList bindings).entries.Perm bindings :=
  perm_foldl_insert h

theorem find?_insertEntry_of_not {test : String → Bool} {key : String} (h : test key = false)
    (value : α) (entries : List (String × α)) :
    (insertEntry key value entries).find? (fun e => test e.1)
      = entries.find? (fun e => test e.1) := by
  have hskip : ∀ rest : List (String × α),
      ((key, value) :: rest).find? (fun e => test e.1) = rest.find? (fun e => test e.1) :=
    fun rest => List.find?_cons_of_neg (by simp [h])
  induction entries with
  | nil => exact hskip []
  | cons e rest ih =>
    rw [insertEntry]
    split
    · exact hskip (e :: rest)
    · split
      · rename_i heq
        rw [hskip, List.find?_cons_of_neg (by simp [← heq, h])]
      · rw [List.find?_cons, List.find?_cons, ih]

theorem find?_insertEntry_of_lookup (test : String → Bool) {key : String} {old : α}
    {entries : List (String × α)} (hordered : entries.Pairwise (fun a b => a.1 < b.1))
    (hold : entries.lookup key = some old) (new : α) :
    (insertEntry key new entries).find? (fun e => test e.1) = entries.find? (fun e => test e.1)
      ∨ test key = true ∧ entries.find? (fun e => test e.1) = some (key, old)
        ∧ (insertEntry key new entries).find? (fun e => test e.1) = some (key, new) := by
  induction entries with
  | nil => cases hold
  | cons e rest ih =>
    obtain ⟨k, v⟩ := e
    obtain ⟨hlater, hrest⟩ := List.pairwise_cons.1 hordered
    rw [insertEntry]
    split
    · -- A key before the first is not bound.
      rename_i hlt
      obtain ⟨before, after, hsplit, -⟩ := List.lookup_eq_some_iff.1 hold
      have hmem : (key, old) ∈ (k, v) :: rest := by simp [hsplit]
      rcases List.mem_cons.1 hmem with heq | hmem
      · cases heq
        exact absurd hlt (String.lt_irrefl _)
      · exact absurd (String.lt_trans hlt (hlater _ hmem)) (String.lt_irrefl _)
    · split
      · rename_i heq
        subst heq
        rw [List.lookup_cons_self, Option.some.injEq] at hold
        subst hold
        cases htest : test key with
        | true => simp [htest]
        | false => simp [htest]
      · rename_i hne
        have hkey : (key == k) = false := by simpa using hne
        rw [List.lookup_cons, hkey] at hold
        rw [List.find?_cons, List.find?_cons]
        cases htest : test k with
        | true => exact .inl rfl
        | false => exact ih hrest hold

theorem findKey?_insert_of_not {test : String → Bool} {key : String} (h : test key = false)
    (map : KeyMap α) (value : α) : (map.insert key value).findKey? test = map.findKey? test := by
  unfold findKey? insert
  rw [find?_insertEntry_of_not h]

theorem findKey?_insert_of_get? (test : String → Bool) {map : KeyMap α} {key : String} {old : α}
    (hold : map.get? key = some old) (new : α) :
    (map.insert key new).findKey? test = map.findKey? test
      ∨ test key = true ∧ map.findKey? test = some old
        ∧ (map.insert key new).findKey? test = some new := by
  unfold findKey? insert
  rcases find?_insertEntry_of_lookup test map.ordered hold new with heq | ⟨htest, hfound, hnew⟩
  · exact .inl (congrArg _ heq)
  · exact .inr ⟨htest, by rw [hfound]; rfl, by rw [hnew]; rfl⟩

end KeyMap
end SqlLint
