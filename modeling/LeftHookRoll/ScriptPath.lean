import LeftHookRoll.CGIManager
import LeftHookRoll.Lib.FileTree

/-!
# The script's path in the child

The child changes to the directory of the script and overwrites the script's slot of the argument vector.
`scriptArg_fits` is about the buffer of the slot, `resolve_scriptArg` about the file that the new argument
names from that directory.
-/

namespace LeftHookRoll

namespace CGIManager

/-- The sizes of the buffers that `_prepExecveArrays` allocates for the arguments. -/
def execveArgvSizes (c : CGIManager) : List Nat := c.scriptArgv.map fun arg => arg.length + 1

/-- The slot that `prepareChildExecutionContext` writes. -/
def scriptSlot (c : CGIManager) : Nat := if c.scriptArgv.length > 1 then 1 else 0

theorem length_resolveScriptExecArg_le (scriptPath : Bytes) :
    (resolveScriptExecArg scriptPath).length ≤ scriptPath.length := by
  rw [resolveScriptExecArg]
  split
  · exact le_rfl
  split
  · exact le_rfl
  · rw [List.length_drop]
    exact Nat.sub_le _ _

theorem zero_not_mem_resolveScriptExecArg {scriptPath : Bytes} (h : 0 ∉ scriptPath) :
    0 ∉ resolveScriptExecArg scriptPath := by
  rw [resolveScriptExecArg]
  split
  · exact h
  split
  · exact h
  · exact fun hmem => h (List.mem_of_mem_drop hmem)

theorem zero_not_mem_resolveScriptDirectory {scriptPath : Bytes} (h : 0 ∉ scriptPath) :
    0 ∉ resolveScriptDirectory scriptPath := by
  rw [resolveScriptDirectory]
  split
  · decide
  · decide
  · exact fun hmem => h (List.mem_of_mem_take hmem)

/-- From the directory of the script the argument names the file that the path names from `cwd`. -/
theorem resolve_scriptArg {ν : Type} (T : FileTree ν UInt8) {cwd d : ν} (hcwd : T.lookup cwd [dot] = some cwd)
    {scriptPath : Bytes} (hlast : scriptPath.getLast? ≠ some slash)
    (hd : T.resolve slash cwd (resolveScriptDirectory scriptPath) = some d) :
    T.resolve slash d (resolveScriptExecArg scriptPath) = T.resolve slash cwd scriptPath := by
  rw [resolveScriptExecArg]
  by_cases habs : scriptPath.head? = some slash
  · rw [if_pos habs]
    exact T.resolve_of_head slash habs d cwd
  rw [if_neg habs]
  rw [resolveScriptDirectory] at hd
  rcases hpos : scriptPath.rfindElem slash with _ | slashPos
  · simp only [hpos] at hd
    have hdot : T.resolve slash cwd [dot] = some cwd := by
      rw [T.resolve_name slash (by simp) (by decide), hcwd]
    rw [Option.some.inj (hd.symm.trans hdot)]
  · obtain ⟨hpath, hlt⟩ := List.eq_append_of_rfindElem hpos
    have hp : scriptPath.take slashPos ≠ [] := fun hnil => habs (by rw [hpath, hnil]; rfl)
    have hq : scriptPath.drop (slashPos + 1) ≠ [] := fun hnil => hlast (by rw [hpath, hnil]; simp)
    have hrel : (scriptPath.drop (slashPos + 1)).head? ≠ some slash := fun hhead =>
      List.not_mem_drop_of_rfindElem hpos (List.mem_of_mem_head? hhead)
    have hdir : T.resolve slash cwd (scriptPath.take slashPos) = some d := by
      rcases slashPos with _ | slashPos
      · exact absurd rfl hp
      · simpa only [hpos] using hd
    have hsplit := T.resolve_append slash hp hq hrel cwd
    rw [← hpath, hdir] at hsplit
    exact hsplit.symm

theorem prepareChildExecutionContext_ok {sys : Sys} {c c' : CGIManager} {w w' : World} {scriptPath : Bytes}
    {argv : List Bytes} (hlast : c.scriptArgv.getLast? = some scriptPath)
    (h : prepareChildExecutionContext sys (c, w) = (.ok argv, c', w')) :
    argv = c.execveArgv.set c.scriptSlot (cstr (resolveScriptExecArg scriptPath)) := by
  rw [prepareChildExecutionContext, Eff.obj_bind] at h
  simp only [hlast] at h
  rw [sysTick_bind] at h
  split at h
  · cases h
    rfl
  · cases h

/-- What the child writes over the script's slot fits the buffer of the slot, and names the script. -/
theorem scriptArg_fits {ν : Type} (T : FileTree ν UInt8) {cwd : ν} (hcwd : T.lookup cwd [dot] = some cwd)
    {scriptPath : Bytes} (hnul : 0 ∉ scriptPath) (hlast : scriptPath.getLast? ≠ some slash)
    (sys : Sys) (request : Request) (interpreterOverride : Bytes) (c : CGIManager) (w : World) {argv : List Bytes}
    {c' : CGIManager} {w' : World}
    (hrun : prepareChildExecutionContext sys (prepare request scriptPath interpreterOverride c, w) =
      (.ok argv, c', w')) :
    let c₁ := prepare request scriptPath interpreterOverride c
    ∃ arg size, c₁.execveArgv[c₁.scriptSlot]? = some scriptPath ∧ argv = c₁.execveArgv.set c₁.scriptSlot arg ∧
      c₁.execveArgvSizes[c₁.scriptSlot]? = some size ∧ arg.length + 1 ≤ size ∧
      ∀ d, T.resolve slash cwd (cstr (resolveScriptDirectory scriptPath)) = some d →
        T.resolve slash d arg = T.resolve slash cwd scriptPath := by
  intro c₁
  rw [cstr_eq_self (zero_not_mem_resolveScriptDirectory hnul)]
  have hargv : c₁.scriptArgv =
      (if interpreterOverride = [] then [] else [interpreterOverride]) ++ [scriptPath] := rfl
  have hexec : c₁.execveArgv = c₁.scriptArgv.map cstr := rfl
  have hslot : c₁.scriptArgv[c₁.scriptSlot]? = some scriptPath := by
    rw [scriptSlot, hargv]
    split_ifs <;> simp_all
  refine ⟨resolveScriptExecArg scriptPath, scriptPath.length + 1, ?_, ?_, ?_,
    Nat.succ_le_succ (length_resolveScriptExecArg_le _), fun d hd => resolve_scriptArg T hcwd hlast hd⟩
  · rw [hexec, List.getElem?_map, hslot, Option.map_some, cstr_eq_self hnul]
  · have hlastArg : c₁.scriptArgv.getLast? = some scriptPath := by rw [hargv, List.getLast?_concat]
    rw [prepareChildExecutionContext_ok hlastArg hrun, cstr_eq_self (zero_not_mem_resolveScriptExecArg hnul)]
  · rw [execveArgvSizes, List.getElem?_map, hslot]
    rfl

/-- A tree without links: a node is its path from the root. -/
def plainTree : FileTree (List Bytes) UInt8 where
  root := []
  lookup d name := some (if name = [dot] then d else if name = [dot, dot] then d.dropLast else d ++ [name])

theorem scriptArg_fits_python :
    let c₁ := prepare {} (ascii "cgi//a.py") (ascii "/bin/python") {}
    ∃ arg size, c₁.execveArgv[c₁.scriptSlot]? = some (ascii "cgi//a.py") ∧
      [ascii "/bin/python", ascii "a.py"] = c₁.execveArgv.set c₁.scriptSlot arg ∧
      c₁.execveArgvSizes[c₁.scriptSlot]? = some size ∧ arg.length + 1 ≤ size ∧
      ∀ d, plainTree.resolve slash [] (cstr (resolveScriptDirectory (ascii "cgi//a.py"))) = some d →
        plainTree.resolve slash d arg = plainTree.resolve slash [] (ascii "cgi//a.py") :=
  scriptArg_fits plainTree rfl (by simp [ascii]) (by simp [ascii, slash]) Sys.calm {} (ascii "/bin/python") {} {} rfl

end CGIManager

end LeftHookRoll
