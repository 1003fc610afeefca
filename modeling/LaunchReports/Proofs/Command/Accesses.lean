/-
What a command asks of the system it runs on.

`Host.answering` answers each access in one way, whatever it is, and keeps all accesses in their order. A command reads
a file, looks for a database or opens one at most once, so every state of the files is one such host.

- `Command.follow`: how a command ends on such a host, and its accesses behind those before it.
- `Command.run_follow`: the exit code and the accesses of a whole run.
-/
import LaunchReports.Command.Run

namespace LaunchReports

/-- an answer to every access -/
abbrev Answers := (a : Access) → a.Reply

/-- the host with these answers, which keeps the accesses -/
def Host.answering (answer : Answers) : Host (StateM (List Access)) := fun a log => (answer a, log ++ [a])

/-- answers that grant everything: every file holds the text, every database file the database -/
def Host.granting (text : String) (d : Database) : Answers
  | .print _ | .printError _ => ()
  | .readText _ => .ok text
  | .isFile _ => true
  | .createDirectories _ => .ok ()
  | .openDatabase .. => some d
  | .saveDatabase .. => .ok ()

/-- an access to the place of a database: it looks for the file, makes directories for it, opens it or writes it -/
def Access.isDatabase : Access → Bool
  | isFile _ | createDirectories _ | openDatabase .. | saveDatabase .. => true
  | print _ | printError _ | readText _ => false

theorem Access.filter_isDatabase {log : List Access} (h : ∀ a ∈ log, a.isDatabase = false) :
    log.filter isDatabase = [] :=
  List.filter_eq_nil_iff.2 fun a ha => Bool.not_eq_true _ ▸ h a ha

namespace Command

/-- a part of a command on such a host -/
abbrev Following (α : Type) := ExceptT Failure (StateM (List Access)) α

variable {α β : Type} (answer : Answers) (log : List Access)

/-- how a command ends, and its accesses behind those in `log` -/
def follow (c : Following α) (log : List Access) : Except Failure α × List Access :=
  c.run.run log

theorem follow_pure (a : α) : follow (pure a) log = (.ok a, log) := rfl

theorem follow_ask (a : Access) : follow (ask (Host.answering answer) a) log = (.ok (answer a), log ++ [a]) := rfl

theorem follow_print (line : String) :
    follow (print (Host.answering answer) line) log = (.ok (), log ++ [.print line]) := rfl

theorem follow_attempt_ok {ε : Type} (failure : ε → Failure) (a : α) :
    follow (attempt failure (.ok a)) log = (.ok a, log) := rfl

theorem follow_attempt_error {ε : Type} (failure : ε → Failure) (e : ε) :
    follow (attempt failure (.error e) : Following α) log = (.error (failure e), log) := rfl

variable {log}

theorem follow_bind_ok {c : Following α} {a : α} {after : List Access}
    (h : follow c log = (.ok a, after)) (next : α → Following β) :
    follow (c >>= next) log = follow (next a) after := by
  unfold follow at h ⊢
  rw [ExceptT.run_bind, StateT.run_bind, h]
  rfl

theorem follow_bind_error {c : Following α} {f : Failure} {after : List Access}
    (h : follow c log = (.error f, after)) (next : α → Following β) :
    follow (c >>= next) log = (.error f, after) := by
  unfold follow at h ⊢
  rw [ExceptT.run_bind, StateT.run_bind, h]
  rfl

/-! ## Whole runs -/

theorem located_ok {m : Type → Type} [Monad m] {env : Environment} {i : Invocation} {l : Locations}
    (h : locations env i = .ok l) (act : Locations → ExceptT Failure m Unit) : located env i act = act l := by
  rw [located, h]

/-- the exit code of a command that ends so -/
def exitCode : Except Failure Unit → Nat
  | .ok () => 0
  | .error f => f.exitCode

/-- the line that every command begins with -/
def opening (name : String) : Access := .print ("simstats: starting `" ++ name ++ "`")

/-- what is printed when a command has ended -/
def closing (name : String) : Except Failure Unit → List Access
  | .ok () => [.print ("simstats: completed `" ++ name ++ "` (exit_code=0)")]
  | .error f =>
    (if f.isFatal then []
      else
        [.printError
          ("simstats: failed `" ++ name ++ "` (exit_code=" ++ String.ofList (Numeral.ofNat f.exitCode) ++ ")")]) ++
      [.printError f.message]

theorem isDatabase_closing (name : String) (ended : Except Failure Unit) :
    ∀ a ∈ closing name ended, a.isDatabase = false := by
  cases ended with
  | ok u => simp [closing, Access.isDatabase]
  | error f => cases hf : f.isFatal <;> simp [closing, hf, Access.isDatabase]

theorem message_mem_closing (name : String) (f : Failure) : .printError f.message ∈ closing name (.error f) :=
  List.mem_append_right _ List.mem_cons_self

theorem print_notMem_closing (name : String) (f : Failure) (line : String) :
    .print line ∉ closing name (.error f) := by
  cases hf : f.isFatal <;> simp [closing, hf]

theorem run_follow {env : Environment} {args : List String} {i : Invocation}
    (hargs : Invocation.parse env.database args = .ok i) {ended : Except Failure Unit} {after : List Access}
    (h : follow (perform (Host.answering answer) env i) [opening i.action.name.text] = (ended, after)) :
    (run (Host.answering answer) env args).run [] = (exitCode ended, after ++ closing i.action.name.text ended) := by
  rw [run, hargs]
  change (runInvocation (Host.answering answer) env i).run [] = _
  unfold follow at h
  rw [runInvocation, StateT.run_bind]
  change (((perform (Host.answering answer) env i).run >>= _).run [opening i.action.name.text] : Id _) = _
  rw [StateT.run_bind, h]
  cases ended with
  | ok u => rfl
  | error f =>
    rw [closing]
    change (StateT.run (ite ((!f.isFatal) = true) _ _) after : Id (Nat × List Access)) = _
    cases f.isFatal with
    | true => rfl
    | false => exact congrArg (Prod.mk _) (List.append_assoc after _ _)

end Command

end LaunchReports
