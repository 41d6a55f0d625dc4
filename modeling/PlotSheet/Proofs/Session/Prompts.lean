import PlotSheet.Proofs.Session.Line

/-!
# Prompt after prompt

Prompts take their answers from the input line by line. The input is cut after each newline, in one
way only, and each prompt takes the next of the lines: its text without the blanks at its ends, or
an error if it is not UTF-8, which touches no later line. Behind the last line every prompt meets
the end of the input. A blank line is not the end, since no line is empty.

## Main definitions

* `IsLineCut`: an input that is cut after each newline
* `IsTrimmed`: a text without the blanks at its ends
* `IsAnswer`: the answer that a line gives
* `Console.askAll`: prompts in order

## Main results

* `IsLineCut.unique`, `exists_isLineCut`: every input is cut in one way
* `isAnswer_lineText`: what is made of a line
* `ask_line_by_line`: the answers to any number of prompts
-/

namespace PlotSheet

/-! ## Lines -/

/-- An input that is cut into lines after each newline. The last line may lack its newline. -/
inductive IsLineCut : (input : List UInt8) → (lines : List (List UInt8)) → Prop
  | nil : IsLineCut [] []
  | last {line : List UInt8} (hne : line ≠ []) (h : newline ∉ line) : IsLineCut line [line]
  | cons {body rest : List UInt8} {lines : List (List UInt8)} (h : newline ∉ body)
      (hrest : IsLineCut rest lines) :
      IsLineCut (body ++ newline :: rest) ((body ++ [newline]) :: lines)

section Lines

variable {input line body : List UInt8} {lines : List (List UInt8)}

theorem splitLine_of_not_mem (h : newline ∉ body) : splitLine body = (body, []) := by
  induction body with
  | nil => rfl
  | cons b body ih =>
    rw [List.mem_cons, not_or] at h
    rw [splitLine, if_neg (Ne.symm h.1), ih h.2]

theorem splitLine_append_newline (h : newline ∉ body) (rest : List UInt8) :
    splitLine (body ++ newline :: rest) = (body ++ [newline], rest) := by
  induction body with
  | nil => rfl
  | cons b body ih =>
    rw [List.mem_cons, not_or] at h
    rw [List.cons_append, splitLine, if_neg (Ne.symm h.1), ih h.2]
    rfl

/-- The first line is what is read as the next line, and the others are left. -/
theorem IsLineCut.splitLine (h : IsLineCut input (line :: lines)) :
    input ≠ [] ∧ (splitLine input).1 = line ∧ IsLineCut (splitLine input).2 lines := by
  cases h with
  | last hne h =>
    rw [splitLine_of_not_mem h]
    exact ⟨hne, rfl, .nil⟩
  | @cons body rest _ h hrest =>
    rw [splitLine_append_newline h]
    exact ⟨List.append_ne_nil_of_right_ne_nil body (List.cons_ne_nil _ rest), rfl, hrest⟩

theorem IsLineCut.flatten (h : IsLineCut input lines) : lines.flatten = input := by
  induction h with
  | nil => rfl
  | last => exact List.flatten_singleton
  | cons h hrest ih => rw [List.flatten_cons, ih, List.append_assoc, List.singleton_append]

/-- There is one way to cut an input into lines. -/
theorem IsLineCut.unique {other : List (List UInt8)} (h : IsLineCut input lines)
    (h' : IsLineCut input other) : other = lines := by
  -- induction on the lines: reading the next line yields the first one of both cuts
  induction lines generalizing input other with
  | nil =>
    cases h
    cases other with
    | nil => rfl
    | cons line other => exact absurd rfl h'.splitLine.1
  | cons line lines ih =>
    obtain ⟨hne, hline, hrest⟩ := h.splitLine
    cases other with
    | nil =>
      cases h'
      exact absurd rfl hne
    | cons line' other =>
      obtain ⟨-, hline', hrest'⟩ := h'.splitLine
      rw [← hline, ← hline', ih hrest hrest']

theorem exists_isLineCut (input : List UInt8) : ∃ lines, IsLineCut input lines := by
  by_cases h : newline ∈ input
  · obtain ⟨body, rest, rfl, hbody⟩ := List.eq_append_cons_of_mem h
    have hlt : rest.length < (body ++ newline :: rest).length := by
      rw [List.length_append, List.length_cons]
      omega
    obtain ⟨lines, hrest⟩ := exists_isLineCut rest
    exact ⟨_, .cons hbody hrest⟩
  · by_cases hne : input = []
    · subst hne
      exact ⟨[], .nil⟩
    · exact ⟨[input], .last hne h⟩
termination_by input.length

end Lines

/-! ## What a line says -/

/-- A text without the blanks at its ends. -/
structure IsTrimmed (text trimmed : List Char) : Prop where
  exists_ends : ∃ before after, text = before ++ trimmed ++ after ∧
    (∀ c ∈ before, Text.isBlank c = true) ∧ ∀ c ∈ after, Text.isBlank c = true
  head : ∀ c ∈ trimmed.head?, Text.isBlank c = false
  last : ∀ c ∈ trimmed.getLast?, Text.isBlank c = false

/-- The answer that a line gives: the text that it encodes without the blanks at its ends, or an
error if it encodes none. -/
inductive IsAnswer (line : List UInt8) : Except InputError String → Prop
  | text {text trimmed : List Char} (h : text.flatMap String.utf8EncodeChar = line)
      (htrimmed : IsTrimmed text trimmed) : IsAnswer line (.ok (String.ofList trimmed))
  | notUtf8 (h : ∀ text : List Char, text.flatMap String.utf8EncodeChar ≠ line) :
      IsAnswer line (.error .notUtf8)

section Answers

open Text

theorem exists_trimStart (text : List Char) :
    ∃ before, text = before ++ trimStart text ∧ (∀ c ∈ before, isBlank c = true) ∧
      ∀ c ∈ (trimStart text).head?, isBlank c = false := by
  refine ⟨text.takeWhile isBlank, List.takeWhile_append_dropWhile.symm,
    List.all_eq_true.1 List.all_takeWhile, fun c hc => ?_⟩
  have hhead := List.head?_dropWhile_not isBlank text
  rw [trimStart] at hc
  rw [Option.mem_def.1 hc] at hhead
  exact hhead

theorem isTrimmed_trim (text : List Char) : IsTrimmed text (trim text) := by
  obtain ⟨before, htext, hbefore, hhead⟩ := exists_trimStart text
  obtain ⟨after, hreverse, hafter, hlast⟩ := exists_trimStart (trimStart text).reverse
  have hstart : trimStart text = trim text ++ after.reverse := by
    rw [trim, trimEnd, ← List.reverse_append, ← hreverse, List.reverse_reverse]
  refine ⟨⟨before, after.reverse, ?_, hbefore, fun c hc => hafter c (List.mem_reverse.1 hc)⟩, ?_,
    ?_⟩
  · rw [List.append_assoc, ← hstart]
    exact htext
  · intro c hc
    apply hhead
    rw [hstart, List.head?_append_of_ne_nil]
    · exact hc
    · rintro hnil
      rw [hnil] at hc
      cases hc
  · rw [trim, trimEnd, List.getLast?_reverse]
    exact hlast

/-- The bytes of a text are the encodings of its characters. -/
theorem flatMap_utf8EncodeChar (s : String) :
    s.toList.flatMap String.utf8EncodeChar = s.toByteArray.data.toList := by
  rw [← String.utf8Encode_toList, List.utf8Encode, List.toList_data_toByteArray]

/-- A line is read as the text that it encodes, if it encodes one. -/
theorem isAnswer_lineText (line : List UInt8) : IsAnswer line (lineText line) := by
  rw [lineText, String.fromUTF8?]
  by_cases hvalid : ByteArray.IsValidUTF8 ⟨line.toArray⟩
  · rw [dif_pos hvalid]
    exact .text (flatMap_utf8EncodeChar _) (isTrimmed_trim _)
  · rw [dif_neg hvalid]
    refine .notUtf8 fun text htext => hvalid ⟨text, ?_⟩
    rw [List.utf8Encode, htext]
    exact ByteArray.ext List.data_toByteArray.symm

end Answers

/-! ## Prompts in order -/

namespace Console

/-- Prompts in order: their answers, and the console after them. -/
def askAll (c : Console) : List String → List (Except InputError String) × Console
  | [] => ([], c)
  | prompt :: rest =>
    let (answer, next) := c.ask prompt
    let (answers, last) := next.askAll rest
    (answer :: answers, last)

section Ask

variable {input : List UInt8} {lines : List (List UInt8)}

/-- A prompt takes the first line, or meets the end of the input if there is none. -/
theorem exists_ask (h : IsLineCut input lines) :
    ∃ rest, IsLineCut rest lines.tail ∧ ∀ output prompt, ask ⟨input, output⟩ prompt =
      (lines.head?.elim (.error .endOfInput) lineText, ⟨rest, output ++ prompt⟩) := by
  cases lines with
  | nil =>
    cases h
    exact ⟨[], .nil, fun output prompt => rfl⟩
  | cons line lines =>
    obtain ⟨hne, hline, hrest⟩ := h.splitLine
    refine ⟨_, hrest, fun output prompt => ?_⟩
    rw [ask, readLine_of_ne_nil hne, hline]
    rfl

/-- All that is written are the prompts, and the lines behind those that were read are left. -/
theorem exists_askAll_snd (prompts : List String) (h : IsLineCut input lines) (output : String) :
    ∃ rest, IsLineCut rest (lines.drop prompts.length) ∧
      (askAll ⟨input, output⟩ prompts).2 = ⟨rest, output ++ String.join prompts⟩ := by
  induction prompts generalizing input lines output with
  | nil => exact ⟨input, h, by simp [askAll]⟩
  | cons prompt prompts ih =>
    obtain ⟨next, hnext, hask⟩ := exists_ask h
    obtain ⟨rest, hrest, hall⟩ := ih hnext (output ++ prompt)
    refine ⟨rest, by simpa using hrest, ?_⟩
    rw [askAll, hask, String.join_cons, ← String.append_assoc]
    exact hall

/-- The answer to each prompt is made of the line with its number. -/
theorem getElem?_askAll (prompts : List String) (h : IsLineCut input lines) (output : String)
    {n : Nat} (hn : n < prompts.length) :
    (askAll ⟨input, output⟩ prompts).1[n]? =
      some (lines[n]?.elim (.error .endOfInput) lineText) := by
  induction prompts generalizing input lines output n with
  | nil => cases hn
  | cons prompt prompts ih =>
    obtain ⟨next, hnext, hask⟩ := exists_ask h
    rw [askAll, hask]
    cases n with
    | zero => rw [List.getElem?_cons_zero, List.head?_eq_getElem?]
    | succ n =>
      have hrest := ih hnext (output ++ prompt) (Nat.lt_of_succ_lt_succ hn)
      rw [List.getElem?_tail] at hrest
      exact hrest

theorem length_askAll (prompts : List String) (c : Console) :
    (c.askAll prompts).1.length = prompts.length := by
  induction prompts generalizing c with
  | nil => rfl
  | cons prompt prompts ih => exact congrArg (· + 1) (ih (c.ask prompt).2)

end Ask

/-- **Prompts read the input line by line.** The input is cut into lines in one way. Each prompt is
answered by the next line, and each one behind the last line by the end of the input; nothing but
the prompts is written, and the lines not yet read are left. -/
theorem ask_line_by_line (input : List UInt8) :
    ∃ lines, IsLineCut input lines ∧ (∀ other, IsLineCut input other → other = lines) ∧
      ∀ (output : String) (prompts : List String),
        (askAll ⟨input, output⟩ prompts).2 =
          ⟨(lines.drop prompts.length).flatten, output ++ String.join prompts⟩ ∧
        (askAll ⟨input, output⟩ prompts).1.length = prompts.length ∧
        ∀ n answer, (askAll ⟨input, output⟩ prompts).1[n]? = some answer →
          (∀ line, lines[n]? = some line → IsAnswer line answer) ∧
          (lines.length ≤ n → answer = .error .endOfInput) := by
  obtain ⟨lines, h⟩ := exists_isLineCut input
  refine ⟨lines, h, fun other h' => h.unique h', fun output prompts => ?_⟩
  obtain ⟨rest, hrest, hafter⟩ := exists_askAll_snd prompts h output
  refine ⟨hrest.flatten ▸ hafter, length_askAll prompts _, fun n answer hanswer => ?_⟩
  have hn : n < prompts.length := by
    obtain ⟨hn, -⟩ := List.getElem?_eq_some_iff.1 hanswer
    rwa [length_askAll] at hn
  rw [getElem?_askAll prompts h output hn, Option.some.injEq] at hanswer
  subst hanswer
  constructor
  · intro line hline
    rw [hline]
    exact isAnswer_lineText line
  · intro hend
    rw [List.getElem?_eq_none hend]
    rfl

/-- A blank line is not the end, and bytes that are not UTF-8 spoil their own line only. -/
example : (askAll ⟨[97, 13, 10, 10, 255, 10, 32, 98], ""⟩ ["1", "2", "3", "4", "5"]).1 =
    [.ok "a", .ok "", .error .notUtf8, .ok "b", .error .endOfInput] := by
  decide +kernel

end Console

end PlotSheet
