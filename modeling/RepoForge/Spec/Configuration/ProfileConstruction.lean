import Mathlib.Data.List.DropRight
import Mathlib.Data.List.TakeWhile
import RepoForge.Source.Configuration.ProfilePatch

/-!
# What the constructor of a profile leaves

The values it stores pass its checks again and are stored as they are (`ProfilePatch.again`).
-/
namespace RepoForge.PolicyPatch
open PyStr (lit ofNat replaceChar)

theorem ensure_ok {ok : Bool} {e : PolicyPatchError} {u : Unit} (h : ensure ok e = .ok u) :
    ok = true := by
  cases ok with
  | true => rfl
  | false => cases h

theorem ensure_of {p : Prop} {inst : Decidable p} {e : PolicyPatchError} (holds : p) :
    ensure (decide p) e = .ok () := by
  rw [decide_eq_true holds]
  rfl

/-! ## Commands -/

structure IsCommand (command : List PyStr) : Prop where
  nonempty : command ≠ []
  bounded : command.length ≤ maxArgumentsPerCommand
  arguments : ∀ argument ∈ command, argument ≠ [] ∧ argument.length ≤ maxArgumentLength

theorem boundedStr_ok {value : Json} {context text : PyStr} {limit : Nat}
    (h : boundedStr value context limit = .ok text) : value = .str text ∧ text.length ≤ limit := by
  cases value with
  | str given =>
    simp only [boundedStr] at h
    split_ifs at h with long
    cases h
    exact ⟨rfl, by omega⟩
  | _ => cases h

theorem boundedStr_of_short {context text : PyStr} {limit : Nat} (short : text.length ≤ limit) :
    boundedStr (.str text) context limit = .ok text := by
  simp only [boundedStr]
  rw [if_neg (by omega)]

theorem validateArgument_ok {context text : PyStr} {argument : Json}
    (h : validateArgument context argument = .ok text) :
    argument = .str text ∧ text ≠ [] ∧ text.length ≤ maxArgumentLength := by
  obtain ⟨given, bounded, h⟩ := bind_ok h
  obtain ⟨_, nonempty, h⟩ := bind_ok h
  cases h
  obtain ⟨rfl, short⟩ := boundedStr_ok bounded
  exact ⟨rfl, by simpa using ensure_ok nonempty, short⟩

theorem validateCommand_ok {value : Json} {context : PyStr} {command : List PyStr}
    (h : validateCommand value context = .ok command) :
    value = .texts command ∧ IsCommand command := by
  cases value with
  | list arguments =>
    obtain ⟨_, nonempty, rest⟩ := bind_ok h
    obtain ⟨_, bounded, texts⟩ := bind_ok rest
    have each := zipIdx_mapM_ok (f := fun value i => validateArgument (indexed context i) value) texts
    have same : arguments = command.map .str := by
      clear nonempty bounded texts rest h
      induction each with
      | nil => rfl
      | cons first _ ih =>
        obtain ⟨i, first⟩ := first
        rw [(validateArgument_ok first).1, ih, List.map_cons]
    have valid : ∀ text ∈ command, text ≠ [] ∧ text.length ≤ maxArgumentLength := by
      intro text here
      obtain ⟨argument, -, i, checked⟩ := forall₂_mem each.flip here
      exact (validateArgument_ok checked).2
    subst same
    refine ⟨rfl, ?_, ?_, valid⟩
    · simpa using ensure_ok nonempty
    · simpa using ensure_ok bounded
  | _ => cases h

theorem validateArgument_of_valid {context text : PyStr}
    (valid : text ≠ [] ∧ text.length ≤ maxArgumentLength) :
    validateArgument context (.str text) = .ok text := by
  simp only [validateArgument, boundedStr_of_short valid.2, ensure_of valid.1, ok_bind]

theorem validateCommand_of_valid {command : List PyStr} (valid : IsCommand command)
    {context : PyStr} : validateCommand (.texts command) context = .ok command := by
  have arguments : ((command.map Json.str).zipIdx.mapM fun item =>
      validateArgument (indexed context item.2) item.1) = .ok command := by
    have each := @mapM_zipIdx _ _ _ (fun value i => validateArgument (indexed context i) value)
      (textOf fun _ => []) (command.map .str) 0 (by
        intro value here i
        obtain ⟨text, inside, rfl⟩ := List.mem_map.mp here
        exact validateArgument_of_valid (valid.arguments text inside))
    rw [each, List.map_map]
    congr 1
    exact List.map_id _
  have nonempty : (!(command.map Json.str).isEmpty) = true := by
    simpa using valid.nonempty
  have bounded : (command.map Json.str).length ≤ maxArgumentsPerCommand := by
    simpa using valid.bounded
  simp only [validateCommand, Json.texts, nonempty, ensure_of bounded, ok_bind, arguments]
  rfl

theorem validateCommands_ok {commands validated : List (List PyStr)} {context : PyStr}
    (h : (commands.zipIdx.mapM fun item =>
      validateCommand (.texts item.1) (indexed context item.2)) = .ok validated) :
    validated = commands ∧ ∀ command ∈ commands, IsCommand command := by
  have each := zipIdx_mapM_ok (f := fun command i => validateCommand (.texts command)
    (indexed context i)) h
  clear h
  induction each with
  | nil => exact ⟨rfl, by simp⟩
  | @cons command stored _ _ first _ ih =>
    obtain ⟨i, first⟩ := first
    obtain ⟨same, valid⟩ := validateCommand_ok first
    have same : command = stored := by
      simp only [Json.texts, Json.list.injEq] at same
      exact List.map_injective_iff.mpr (fun _ _ eq => Json.str.inj eq) same
    subst same
    refine ⟨by rw [ih.1], ?_⟩
    intro other here
    rcases List.mem_cons.mp here with rfl | here
    · exact valid
    · exact ih.2 other here

theorem validateCommands_of_valid {commands : List (List PyStr)} {context : PyStr}
    (valid : ∀ command ∈ commands, IsCommand command) :
    (commands.zipIdx.mapM fun item =>
      validateCommand (.texts item.1) (indexed context item.2)) = .ok commands := by
  have each := @mapM_zipIdx _ _ _ (fun command i => validateCommand (.texts command)
    (indexed context i)) id commands 0 fun command here i =>
      validateCommand_of_valid (valid command here)
  rwa [List.map_id] at each

/-! ## The other values -/

theorem optionalSeconds_again {value : Json} {maximum : Int} {e e' : PolicyPatchError}
    {seconds : Option Int} (h : optionalSeconds value maximum e = .ok seconds) :
    optionalSeconds ((seconds.map Json.int).getD .null) maximum e' = .ok seconds := by
  cases value with
  | null =>
    cases h
    rfl
  | int n =>
    simp only [optionalSeconds] at h
    split_ifs at h with inside
    cases h
    simp only [Option.map_some, Option.getD_some, optionalSeconds]
    rw [if_pos inside]
  | _ => cases h

theorem stripSlashes_again (text : PyStr) : stripSlashes (stripSlashes text) = stripSlashes text := by
  have kept : stripSlashes text <:+: replaceChar '\\' '/' text :=
    (List.rdropWhile_prefix _ _).isInfix.trans (List.dropWhile_suffix _).isInfix
  have plain : replaceChar '\\' '/' (stripSlashes text) = stripSlashes text := by
    unfold replaceChar
    rw [List.map_congr_left (g := id), List.map_id]
    intro c here
    obtain ⟨original, -, rfl⟩ := List.mem_map.mp (kept.subset here)
    by_cases backslash : original = .scalar '\\'
    · rw [if_pos backslash]
      rfl
    · rw [if_neg backslash, if_neg backslash]
      rfl
  have front : (stripSlashes text).dropWhile isSlash = stripSlashes text := by
    rw [List.dropWhile_eq_self_iff]
    intro long slash
    have head := (List.rdropWhile_prefix isSlash
      ((replaceChar '\\' '/' text).dropWhile isSlash)).getElem long
    have idempotent := List.dropWhile_eq_self_iff.mp
      (List.dropWhile_idempotent isSlash (replaceChar '\\' '/' text))
    have longer : 0 < ((replaceChar '\\' '/' text).dropWhile isSlash).length :=
      Nat.lt_of_lt_of_le long (List.rdropWhile_prefix _ _).length_le
    apply idempotent longer
    rw [← head]
    exact slash
  have back : (stripSlashes text).rdropWhile isSlash = stripSlashes text :=
    List.rdropWhile_idempotent _ _
  calc stripSlashes (stripSlashes text)
      = ((replaceChar '\\' '/' (stripSlashes text)).dropWhile isSlash).rdropWhile isSlash := rfl
    _ = stripSlashes text := by rw [plain, front, back]

theorem stripSlashes_length (text : PyStr) : (stripSlashes text).length ≤ text.length :=
  calc (stripSlashes text).length
      ≤ ((replaceChar '\\' '/' text).dropWhile isSlash).length :=
        (List.rdropWhile_prefix _ _).length_le
    _ ≤ (replaceChar '\\' '/' text).length := (List.dropWhile_suffix _).length_le
    _ = text.length := List.length_map _

theorem optionalWorkdir_again {value : Json} {context context' : PyStr} {workdir : Option PyStr}
    (h : optionalWorkdir value context = .ok workdir) :
    optionalWorkdir ((workdir.map Json.str).getD .null) context' = .ok workdir := by
  have stored : ∀ text, boundedStr value context maxArgumentLength = .ok text →
      isSafeWorkdir (stripSlashes text) = true → workdir = some (stripSlashes text) →
      optionalWorkdir ((workdir.map Json.str).getD .null) context' = .ok workdir := by
    rintro text bounded safe rfl
    have short := (stripSlashes_length text).trans (boundedStr_ok bounded).2
    simp only [Option.map_some, Option.getD_some, optionalWorkdir, boundedStr_of_short short,
      ok_bind, stripSlashes_again, safe]
    rfl
  cases value with
  | null =>
    cases h
    rfl
  | _ =>
    obtain ⟨text, bounded, h⟩ := bind_ok h
    obtain ⟨_, safe, h⟩ := bind_ok h
    cases h
    exact stored text bounded (ensure_ok safe) rfl

theorem safeName_ok {value : Json} {context name : PyStr} (h : safeName value context = .ok name) :
    value = .str name ∧ isSafeName name = true := by
  cases value with
  | str given =>
    simp only [safeName] at h
    split_ifs at h with safe
    cases h
    exact ⟨rfl, safe⟩
  | _ => cases h

theorem safeName_of_safe {context name : PyStr} (safe : isSafeName name = true) :
    safeName (.str name) context = .ok name := by
  simp only [safeName]
  rw [if_pos safe]

/-! ## The whole -/

/-- What the constructor of a profile has checked. -/
structure ProfileFields.Checked (p : ProfileFields) : Prop where
  name : isSafeName p.name = true
  description : p.description.length ≤ maxDescriptionLength
  nonempty : p.commands ≠ []
  bounded : p.commands.length ≤ maxCommandsPerProfile
  commands : ∀ command ∈ p.commands, IsCommand command
  timeoutSeconds : ∀ e, optionalSeconds ((p.timeoutSeconds.map Json.int).getD .null)
    maxTimeoutSeconds e = .ok p.timeoutSeconds
  workingDirectory : ∀ context, optionalWorkdir ((p.workingDirectory.map Json.str).getD .null)
    context = .ok p.workingDirectory
  distinct : (p.steps.map (·.stepId)).Nodup
  steps : p.steps = [] ∨ p.steps.map (·.command) = p.commands
  baseline : p.baselinePolicy = .noRegression → ∃ step ∈ p.steps, step.kind = .hygiene

/-- The arguments that a profile was stored with. -/
@[reducible] def ProfileFields.arguments (p : ProfileFields) : ProfileArguments where
  name := p.name
  description := p.description
  commands := p.commands
  verification := p.verification
  timeoutSeconds := (p.timeoutSeconds.map Json.int).getD .null
  workingDirectory := (p.workingDirectory.map Json.str).getD .null
  steps := p.steps
  baselinePolicy := p.baselinePolicy
  modelInvocable := p.modelInvocable
  minIntervalSeconds := p.minIntervalSeconds

theorem ProfileArguments.postInit_checked {a : ProfileArguments} {p : ProfileFields}
    (h : a.postInit = .ok p) : p.Checked := by
  obtain ⟨_, name, h⟩ := bind_ok h
  obtain ⟨_, description, h⟩ := bind_ok h
  obtain ⟨_, nonempty, h⟩ := bind_ok h
  obtain ⟨_, bounded, h⟩ := bind_ok h
  obtain ⟨validated, commands, h⟩ := bind_ok h
  obtain ⟨seconds, timeout, h⟩ := bind_ok h
  obtain ⟨workdir, directory, h⟩ := bind_ok h
  obtain ⟨_, distinct, h⟩ := bind_ok h
  obtain ⟨_, steps, h⟩ := bind_ok h
  obtain ⟨_, baseline, h⟩ := bind_ok h
  cases h
  obtain ⟨same, valid⟩ := validateCommands_ok commands
  have name' := safeName_ok name
  have description' := boundedStr_ok description
  simp only [Json.str.injEq] at name' description'
  exact {
    name := name'.1 ▸ name'.2
    description := description'.1 ▸ description'.2
    nonempty := by simpa [same] using ensure_ok nonempty
    bounded := by simpa [same] using ensure_ok bounded
    commands := same ▸ valid
    timeoutSeconds := fun _ => optionalSeconds_again timeout
    workingDirectory := fun _ => optionalWorkdir_again directory
    distinct := by simpa using ensure_ok distinct
    steps := by simpa using ensure_ok steps
    baseline := of_decide_eq_true (ensure_ok baseline) }

theorem ProfileFields.Checked.postInit {p : ProfileFields} (checked : p.Checked) :
    p.arguments.postInit = .ok p := by
  simp only [ProfileArguments.postInit, safeName_of_safe checked.name,
    boundedStr_of_short checked.description, ensure_of checked.nonempty,
    ensure_of checked.bounded, validateCommands_of_valid checked.commands, checked.timeoutSeconds,
    checked.workingDirectory, ensure_of checked.distinct, ensure_of checked.steps,
    ensure_of checked.baseline, ok_bind]

variable (profile : ProfilePatch)

theorem ProfilePatch.checked : profile.Checked := by
  obtain ⟨arguments, made⟩ := profile.accepted
  exact ProfileArguments.postInit_checked made

theorem ProfilePatch.again : profile.arguments.construct = .ok profile := by
  unfold ProfileArguments.construct
  split
  · rename_i fields made
    rw [profile.checked.postInit] at made
    cases made
    rfl
  · rename_i e raised
    rw [profile.checked.postInit] at raised
    cases raised

end RepoForge.PolicyPatch
