import SqlLint.Rule

/-! # The registry of rules

Rules in the order of their registration. No two have one code, and no two have names that differ in
letter case only. A rule is looked up by code first and by name second, both in any letter case. -/

namespace SqlLint

/-- Why a rule was not registered. -/
inductive RegistryError where
  /-- A rule with this code is there already. -/
  | duplicateRule (code : String)
  /-- The rule with the code `existing` has this name already. -/
  | duplicateName (name existing : String)
deriving DecidableEq, Repr

def RegistryError.message : RegistryError → String
  | .duplicateRule code => s!"rule {code} is already registered"
  | .duplicateName name existing => s!"rule name {name} is already registered by {existing}"

/-- The registered rules, with an index by name and one by group. -/
structure Registry where
  rules : List Rule
  /-- The code of each rule under its name in lower case. -/
  names : List (String × String)
  /-- The codes of each group that has a rule. -/
  groups : List (RuleGroup × List String)

namespace Registry

def empty : Registry := ⟨[], [], []⟩

/-- The groups with a code added to one of them. -/
def addToGroup (group : RuleGroup) (code : String) :
    List (RuleGroup × List String) → List (RuleGroup × List String)
  | [] => [(group, [code])]
  | (g, codes) :: rest =>
    if g = group then (g, codes ++ [code]) :: rest else (g, codes) :: addToGroup group code rest

def find? (r : Registry) (code : String) : Option Rule := r.rules.find? (·.info.code == code)

/-- Adds a rule at the end, unless its code or its name is taken. -/
def register (r : Registry) (rule : Rule) : Except RegistryError Registry :=
  let info := rule.info
  let key := Text.lower info.name
  if (r.find? info.code).isSome then .error (.duplicateRule info.code)
  else
    match r.names.lookup key with
    | some existing => .error (.duplicateName info.name existing)
    | none =>
      .ok ⟨r.rules ++ [rule], r.names ++ [(key, info.code)],
        addToGroup info.group info.code r.groups⟩

/-- Registers rules one after the other. -/
def ofRules (rules : List Rule) : Except RegistryError Registry := rules.foldlM register empty

/-- Registers a rule in place, index by index. A call that fails leaves what it has written so far. -/
def add (rule : Rule) : StateM Registry (Except RegistryError Unit) := do
  let info := rule.info
  let key := Text.lower info.name
  if ((← get).find? info.code).isSome then
    return .error (.duplicateRule info.code)
  if let some existing := (← get).names.lookup key then
    return .error (.duplicateName info.name existing)
  modify fun r => { r with names := r.names ++ [(key, info.code)] }
  modify fun r => { r with groups := addToGroup info.group info.code r.groups }
  modify fun r => { r with rules := r.rules ++ [rule] }
  return .ok ()

/-- One call after the other, and what each returned. A call that fails does not end them. -/
def addEach (rules : List Rule) : StateM Registry (List (Except RegistryError Unit)) :=
  rules.mapM add

/-- The code that a reference stands for. -/
def code? (r : Registry) (reference : String) : Option String :=
  ((r.rules.map (·.info.code)).find? (Text.same · reference))
    <|> r.names.lookup (Text.lower reference)

def get? (r : Registry) (reference : String) : Option Rule := r.code? reference >>= r.find?

def infos (r : Registry) : List RuleInfo := r.rules.map Rule.info

def group (r : Registry) (g : RuleGroup) : List Rule :=
  ((r.groups.lookup g).getD []).filterMap r.find?

def size (r : Registry) : Nat := r.rules.length

def isEmpty (r : Registry) : Bool := r.rules.isEmpty

theorem rules_register {r s : Registry} {rule : Rule} (h : r.register rule = .ok s) :
    s.rules = r.rules ++ [rule] := by
  simp only [register] at h
  split at h
  · cases h
  · split at h
    · cases h
    · cases h; rfl

/-- Registering in place does what `register` does, and nothing where that refuses. -/
theorem run_add (r : Registry) (rule : Rule) :
    (add rule).run r =
      match r.register rule with
      | .ok t => (.ok (), t)
      | .error e => (.error e, r) := by
  unfold add register
  by_cases hcode : (r.find? rule.info.code).isSome = true
  · simp [hcode]
    rfl
  · cases hname : r.names.lookup (Text.lower rule.info.name) with
    | some existing =>
      simp [hcode, hname]
      rfl
    | none =>
      simp [hcode, hname]
      rfl

theorem rules_foldlM {rules : List Rule} {r s : Registry} (h : rules.foldlM register r = .ok s) :
    s.rules = r.rules ++ rules := by
  induction rules generalizing r with
  | nil => cases h; simp
  | cons rule rest ih =>
    rw [List.foldlM_cons] at h
    cases hr : r.register rule with
    | error e => rw [hr] at h; cases h
    | ok t =>
      rw [hr] at h
      simp [ih h, rules_register hr]

theorem rules_ofRules {rules : List Rule} {r : Registry} (h : ofRules rules = .ok r) :
    r.rules = rules := by
  simpa [empty] using rules_foldlM h

end Registry
end SqlLint
