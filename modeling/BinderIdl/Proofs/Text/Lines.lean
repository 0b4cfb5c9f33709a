namespace BinderIdl.Text

/-- The lines of a text. What stands behind the last line end is one only if
there is something. -/
def lines (text : String) : List String :=
  let pieces := text.toList.splitOn '\n'
  (if pieces.getLast? = some [] then pieces.dropLast else pieces).map
    String.ofList

/-- Puts a margin in front of every line. -/
def shift (margin text : String) : String :=
  String.join ((lines text).map fun line => margin ++ line ++ "\n")

def unlines (lines : List String) : String :=
  String.join (lines.map (· ++ "\n"))

theorem unlines_append (first second : List String) :
    unlines (first ++ second) = unlines first ++ unlines second := by
  simp [unlines]

theorem toList_unlines (ls : List String) :
    (unlines ls).toList =
      ['\n'].intercalate (ls.map String.toList ++ [[]]) := by
  induction ls with
  | nil => rfl
  | cons line rest induction =>
      have split : unlines (line :: rest) = line ++ "\n" ++ unlines rest := by
        simp [unlines]
      rw [split, String.toList_append, String.toList_append, induction,
        List.map_cons, List.cons_append,
        List.intercalate_cons_of_ne_nil (by simp)]
      rfl

theorem lines_unlines {ls : List String}
    (unbroken : ∀ line ∈ ls, '\n' ∉ line.toList) :
    lines (unlines ls) = ls := by
  have pieces :
      (unlines ls).toList.splitOn '\n' = ls.map String.toList ++ [[]] := by
    rw [toList_unlines]
    refine List.splitOn_intercalate '\n' (fun piece listed => ?_) (by simp)
    rcases List.mem_append.mp listed with inside | last
    · obtain ⟨line, member, rfl⟩ := List.mem_map.mp inside
      exact unbroken line member
    · rw [List.mem_singleton.mp last]
      exact List.not_mem_nil
  rw [lines, pieces]
  simp [Function.comp_def]

theorem shift_unlines (margin : String) {ls : List String}
    (unbroken : ∀ line ∈ ls, '\n' ∉ line.toList) :
    shift margin (unlines ls) = unlines (ls.map (margin ++ ·)) := by
  rw [shift, lines_unlines unbroken, unlines, List.map_map]
  rfl

end BinderIdl.Text
