import SignalkDoctor.HostPath
import SignalkDoctor.ShellWords
/-!
# ShellQuote — the command of a bug report (`src/bug-report.ts`)

`generateBugReport` has the host's user manager run a shell with a command in which the two host paths are quoted.
`shellCommand_words`: whatever the paths are, the shell reads its four words.
-/
namespace SignalkDoctor
namespace BugReport

open Shell (Word tokens step simpleCommand quotedWord plainWord tokens_cons)

/-- `s.replace(/'/g, "'\\''")`, of one character. -/
def quoteChar (c : Char) : Text := if c = '\'' then ['\'', '\\', '\'', '\''] else [c]

def shellQuote (s : Text) : Text := '\'' :: (s.flatMap quoteChar ++ ['\''])

def shellCommand (hostHostScript hostOutDir : Text) : Text :=
  shellQuote hostHostScript ++ " bug-report --to ".toList ++ shellQuote hostOutDir

def systemdRunArgs (hostHostScript hostOutDir : Text) : List Text :=
  ["--user", "--pipe", "--wait", "--collect", "--service-type=oneshot", "--quiet", "--", "/bin/sh", "-c"].map String.toList ++
    [shellCommand hostHostScript hostOutDir]

/-! ## The shell reads it back -/

/-- Between the quotes each character comes out as itself, the quotes of the text included. -/
theorem tokens_quoteChar (w : Word) (c : Char) (cs : Text) :
    tokens (.single w) (quoteChar c ++ cs) = tokens (.single (w ++ quotedWord [c])) cs := by
  unfold quoteChar
  by_cases hc : c = '\''
  · subst hc
    exact Shell.tokens_single_quote w cs
  · rw [if_neg hc]
    exact Shell.tokens_single hc w cs

theorem tokens_flatMap_quoteChar : ∀ (s : Text) (w : Word) (cs : Text),
    tokens (.single w) (s.flatMap quoteChar ++ cs) = tokens (.single (w ++ quotedWord s)) cs
  | [], w, cs => by
    rw [List.flatMap_nil, List.nil_append, quotedWord, List.map_nil, List.append_nil]
  | c :: s, w, cs => by
    have hsplit : w ++ quotedWord [c] ++ quotedWord s = w ++ quotedWord (c :: s) := by
      rw [List.append_assoc, ← Shell.quotedWord_append, List.singleton_append]
    rw [List.flatMap_cons, List.append_assoc, tokens_quoteChar, tokens_flatMap_quoteChar s, hsplit]

/-- **A quoted text is one word of quoted characters.** -/
theorem tokens_shellQuote (s cs : Text) : tokens .start (shellQuote s ++ cs) = tokens (.word (quotedWord s)) cs := by
  have hopen : step .start '\'' = .ok ([], .single []) := rfl
  have hclose : step (.single (quotedWord s)) '\'' = .ok ([], .word (quotedWord s)) := rfl
  rw [shellQuote, List.cons_append, List.append_assoc, tokens_cons hopen, tokens_flatMap_quoteChar, List.nil_append,
    List.singleton_append, tokens_cons hclose]

theorem tokens_shellCommand (s d : Text) : tokens .start (shellCommand s d) =
    .ok [.word (quotedWord s), .word (plainWord "bug-report".toList), .word (plainWord "--to".toList),
      .word (quotedWord d)] := by
  have hmiddle : " bug-report --to ".toList ++ shellQuote d =
      ' ' :: ("bug-report".toList ++ ' ' :: ("--to".toList ++ ' ' :: shellQuote d)) := rfl
  have hlast : tokens .start (shellQuote d) = .ok [.word (quotedWord d)] := by
    have hquote := tokens_shellQuote d []
    rwa [List.append_nil] at hquote
  rw [shellCommand, List.append_assoc, tokens_shellQuote, hmiddle, Shell.tokens_blank rfl,
    Shell.tokens_start_ordinary (by decide) (List.all_eq_true.1 rfl), Shell.tokens_blank rfl,
    Shell.tokens_start_ordinary (by decide) (List.all_eq_true.1 rfl), Shell.tokens_blank rfl, hlast]
  rfl

/-- **The shell runs the script with the three arguments**: one simple command, whatever the two paths are. -/
theorem shellCommand_words (aliases : List Text) (s d : Text) :
    ∃ command, (systemdRunArgs s d).getLast? = some command ∧
      simpleCommand aliases command = some [s, "bug-report".toList, "--to".toList, d] := by
  refine ⟨shellCommand s d, by rw [systemdRunArgs, List.getLast?_concat], ?_⟩
  have hwords : ∀ w w' : Word, [Shell.Token.word w, .word (plainWord "bug-report".toList),
      .word (plainWord "--to".toList), .word w'].mapM Shell.Token.word? =
        some [w, plainWord "bug-report".toList, plainWord "--to".toList, w'] := fun _ _ => rfl
  have hexpands : [quotedWord s, plainWord "bug-report".toList, plainWord "--to".toList, quotedWord d].any
      Word.expands = false := by
    simp only [List.any_cons, Shell.quotedWord_expands]
    rfl
  rw [simpleCommand, tokens_shellCommand]
  simp only [hwords, (Shell.quotedWord_inert s _).1, (Shell.quotedWord_inert s []).2, hexpands, Bool.or_self,
    Bool.false_eq_true, if_false, List.map_cons, Shell.text_quotedWord]
  rfl

end BugReport
end SignalkDoctor
