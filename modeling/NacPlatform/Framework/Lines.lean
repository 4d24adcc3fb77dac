import NacPlatform.Framework.Text

namespace NacPlatform

/-! Texts that are written line by line. -/

/-- Every line is ended by a line feed. -/
def unlines (ls : List (List Char)) : List Char := ls.flatMap (·++['\n'])

/-- A line without the carriage return at its end. -/
def dropReturn (line : List Char) : List Char :=
  if line.getLast?=some '\r' then line.dropLast else line

theorem dropReturn_of_getLast? {line : List Char} (h : line.getLast?≠some '\r') :
    dropReturn line=line := if_neg h

theorem dropReturn_begins (line : List Char) : dropReturn line <+: line := by
  unfold dropReturn
  split
  · exact List.dropLast_prefix line
  · exact List.prefix_refl line

theorem dropReturn_ne_nil {line : List Char} (hne : line≠[]) (hreturn : line≠['\r']) :
    dropReturn line≠[] := by
  unfold dropReturn
  split
  · next hlast =>
    obtain ⟨init,rfl⟩ := List.getLast?_eq_some_iff.mp hlast
    intro hnil
    rw [List.dropLast_concat] at hnil
    rw [hnil] at hreturn
    exact hreturn rfl
  · exact hne

theorem linesGo_break (acc rest : List Char) :
    linesGo acc ('\n'::rest)=dropReturn acc.reverse::linesGo [] rest := by
  conv_lhs => unfold linesGo
  rw [if_pos (by decide)]
  cases acc with
  | nil => rfl
  | cons c acc =>
    rw [dropReturn,List.getLast?_reverse,List.head?_cons]
    split
    · next hacc =>
      obtain ⟨rfl,rfl⟩ := List.cons.inj hacc
      rw [if_pos rfl,List.reverse_cons,List.dropLast_concat]
    · next hother =>
      have hc : c ≠ '\r' := by
        rintro rfl
        exact hother acc rfl
      rw [if_neg fun e => hc (Option.some.inj e)]

theorem linesGo_line {line : List Char} (h : '\n' ∉ line) (acc rest : List Char) :
    linesGo acc (line++ '\n'::rest)=dropReturn (acc.reverse++line)::linesGo [] rest := by
  induction line generalizing acc with
  | nil => rw [List.nil_append,List.append_nil,linesGo_break]
  | cons c line ih =>
    have hc : c ≠ '\n' := fun e => h (e ▸ List.mem_cons_self)
    have hline : '\n' ∉ line := fun hm => h (List.mem_cons_of_mem c hm)
    have hnext : linesGo acc (c::(line++ '\n'::rest))=linesGo (c::acc) (line++ '\n'::rest) := by
      conv_lhs => unfold linesGo
      rw [if_neg (by simpa using hc)]
    rw [List.cons_append,hnext,ih hline,List.reverse_cons,List.append_assoc]
    rfl

/-- The lines of what is written line by line. -/
theorem lines_unlines {ls : List (List Char)} (h : ∀ l ∈ ls, '\n' ∉ l) :
    lines (String.ofList (unlines ls))=ls.map dropReturn := by
  rw [lines,String.toList_ofList]
  induction ls with
  | nil => rfl
  | cons l ls ih =>
    obtain ⟨hl,hls⟩ := List.forall_mem_cons.mp h
    rw [unlines,List.flatMap_cons,List.append_assoc,List.singleton_append,linesGo_line hl,
      List.reverse_nil,List.nil_append,List.map_cons]
    exact congrArg (dropReturn l::·) (ih hls)

/-- A trimmed text ends in no blank. -/
theorem getLast?_of_trim {s : String} (h : trim s=s) {c : Char}
    (hc : s.toList.getLast?=some c) : isWhitespace c=false := by
  have hnot := List.head?_dropWhile_not isWhitespace (s.toList.dropWhile isWhitespace).reverse
  rw [← h,trim,String.toList_ofList,List.getLast?_reverse] at hc
  rw [hc] at hnot
  simpa using hnot

end NacPlatform
