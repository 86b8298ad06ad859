import LlmHoneypot.Vfs.Overlay

/-! # Handlers of `ls`, `stat` and `cat`

The renderers of `responder.py` that read files. -/

namespace LlmHoneypot

def WorldState.withoutFiles (world : WorldState) : WorldState := { world with files := .empty }

namespace Responder

structure LsArgs where
  long : Bool := false
  all : Bool := false
  paths : List Str := []
  deriving DecidableEq, Repr

def LS_LONG_FLAGS : List Str :=
  ["--color=auto", "--color=always", "--color=never", "--color",
    "--group-directories-first"].map String.toList

def lsFlag (options : LsArgs) (flag : Char) : Option LsArgs :=
  if flag = 'l' then some { options with long := true }
  else if flag = 'a' ∨ flag = 'A' then some { options with all := true }
  else if flag ∈ "h1FGpCxb".toList then some options
  else none

def lsArg (options : LsArgs) (arg : Str) : Option LsArgs :=
  if "--".toList.isPrefixOf arg then
    if arg = "--all".toList ∨ arg = "--almost-all".toList then some { options with all := true }
    else if arg ∈ LS_LONG_FLAGS then some options
    else none
  else if "-".toList.isPrefixOf arg then (arg.drop 1).foldlM lsFlag options
  else some { options with paths := options.paths ++ [arg] }

def hLs (formats : Vfs.Formats) : Handler := fun args ctx user =>
  match args.foldlM lsArg {} with
  | none => none
  | some options =>
      if 1 < options.paths.length then none
      else
        let target :=
          match options.paths with
          | [] => ctx.cwd
          | path :: _ => resolvePath path ctx
        let shown := ⟨options.long, options.all, ctx.piped⟩
        (Vfs.renderLs formats ⟨ctx.world, ctx.loginUser⟩ target user shown).map
          fun out => { output := out }

def soleOperand (args : List Str) : Option Str :=
  match args.filter fun arg => !"-".toList.isPrefixOf arg with
  | [path] =>
      if args.any fun arg => "-".toList.isPrefixOf arg && arg != "--".toList then none
      else some path
  | _ => none

def STAT_ERROR : Str := "stat: cannot".toList

def hStat (formats : Vfs.Formats) : Handler := fun args ctx user =>
  (soleOperand args).map fun path =>
    let out :=
      Vfs.renderStat formats ⟨ctx.world, ctx.loginUser⟩ (resolvePath path ctx) user
    { output := out, isError := STAT_ERROR.isPrefixOf out }

abbrev CatOne := Str → ShellContext → Str → Option ResponderResult

def ShellContext.withoutFiles (ctx : ShellContext) : ShellContext :=
  { ctx with world := ctx.world.withoutFiles }

def hCat (catOne : CatOne) : Handler := fun args ctx user =>
  match soleOperand args with
  | none => none
  | some path =>
      match ctx.world.files.get? path with
      | some fact =>
          fact.contentSnippet.map fun body =>
            { output := if "\n".toList.isSuffixOf body then body else body ++ "\n".toList }
      | none => catOne path ctx.withoutFiles user

section Listings

variable (formats : Vfs.Formats) {args : List Str} {ctx : ShellContext} {user : Str}
  {node : Node}

theorem hLs_shows {options : LsArgs} {target : Str} {entries : List Node}
    (parsed : args.foldlM lsArg {} = some options)
    (isTarget : (options.paths = [] ∧ target = ctx.cwd) ∨
      ∃ path, options.paths = [path] ∧ target = resolvePath path ctx)
    (isDir : (⟨ctx.world, ctx.loginUser⟩ : Vfs).lsTarget (Vfs.normpath target) =
      some (.dir entries))
    (member : node ∈ (⟨ctx.world, ctx.loginUser⟩ : Vfs).shownEntries (Vfs.normpath target) user
      options.all entries) :
    ∃ result, hLs formats args ctx user = some result ∧
      Vfs.entryText formats user options.long node <:+: result.output := by
  rcases Vfs.renderLs_dir formats target user ⟨options.long, options.all, ctx.piped⟩ isDir member
    with ⟨out, rendered, shown⟩
  rcases isTarget with ⟨paths, isCwd⟩ | ⟨path, paths, isPath⟩
  · refine ⟨{ output := out }, ?_, shown⟩
    simp only [hLs, parsed, paths, ← isCwd, rendered]
    rfl
  · refine ⟨{ output := out }, ?_, shown⟩
    simp only [hLs, parsed, paths, ← isPath, rendered]
    rfl

theorem hStat_shows {path : Str} (operand : soleOperand args = some path)
    (stated : (⟨ctx.world, ctx.loginUser⟩ : Vfs).statNode
      (Vfs.normpath (resolvePath path ctx)) = some node) :
    ∃ result, hStat formats args ctx user = some result ∧
      "  Size: ".toList ++ Text.decimal node.size <:+: result.output := by
  rw [hStat, operand]
  refine ⟨_, rfl, ?_⟩
  simp only [Vfs.renderStat, stated]
  exact Vfs.statText_shows ..

end Listings

section Absolute

variable {catOne : CatOne} {formats : Vfs.Formats} {ctx : ShellContext} {user : Str}

theorem soleOperand_text {path : Str} (absolute : "/".toList.isPrefixOf path = true) :
    soleOperand [path] = some path := by
  have notFlag : "-".toList.isPrefixOf path = false := by
    cases path with
    | nil => cases absolute
    | cons ch rest =>
        have slash : '/' = ch := by simpa [List.isPrefixOf] using absolute
        rw [← slash]
        rfl
  simp only [soleOperand, List.filter_cons, notFlag, Bool.not_false, if_true, List.filter_nil,
    List.any_cons, List.any_nil, Bool.false_and, Bool.or_false, Bool.false_eq_true, if_false]

theorem hCat_text {path : Str} (absolute : "/".toList.isPrefixOf path = true) :
    hCat catOne [path] ctx user =
      match ctx.world.files.get? path with
      | some fact =>
          fact.contentSnippet.map fun body =>
            { output := if "\n".toList.isSuffixOf body then body else body ++ "\n".toList }
      | none => catOne path ctx.withoutFiles user := by
  simp only [hCat, soleOperand_text absolute]

end Absolute

end Responder

end LlmHoneypot
