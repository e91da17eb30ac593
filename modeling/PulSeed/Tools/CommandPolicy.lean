import PulSeed.Drive.Values

/-!
# The policy on shell commands (`tools/system/ShellTool/command-policy.ts`)

A command is a text that a shell runs. The policy has a tokenizer of its own: from its tokens it
takes simple commands and redirections, classifies them, and denies the command, allows it or
asks for an approval.

Which paths lie in protected roots is a question to the file system, and left open here.
-/

namespace PulSeed.CommandPolicy

/-! ## Tokens -/

/-- `ShellOperator`. -/
inductive ShellOperator where
  | and
  | or
  | sequence
  | pipe
  | stdout_redirect
  | stdout_append
  | stderr_redirect
  | stderr_append
  | combined_redirect
  | stdin_redirect
  deriving DecidableEq, Repr

/-- `ShellToken`. -/
inductive ShellToken where
  | word (value : List Char)
  | operator (value : ShellOperator)
  deriving DecidableEq, Repr

/-- `isShellWhitespace`. -/
def isShellWhitespace (char : Char) : Bool := char = ' ' || char = '\t'

/-- `redirectOperator`. -/
def redirectOperator (char : Char) (next : Option Char) : ShellOperator :=
  if char = '<' then .stdin_redirect
  else if next = some '>' then .stdout_append else .stdout_redirect

/-- `takeRedirectDescriptor`. -/
def takeRedirectDescriptor (current : List Char) : Option ShellOperator :=
  if current = ['1'] then some .stdout_redirect
  else if current = ['2'] then some .stderr_redirect
  else none

/-- `pushWord`. -/
def pushWord (current : List Char) : List ShellToken :=
  if current = [] then [] else [.word current]

/-- What a redirection pushes. -/
def pushRedirect (current : List Char) (char : Char) (next : Option Char) : List ShellToken :=
  match takeRedirectDescriptor current with
  | some descriptor => [.operator descriptor]
  | none => pushWord current ++ [.operator (redirectOperator char next)]

def multiline : String := "Shell command contains unsupported multiline syntax"
def commandSubstitution : String := "Shell command contains unsupported command substitution syntax"
def unterminatedQuote : String := "Shell command contains unterminated quoted text"

/-- The loop of `tokenizeShellCommand`. The tokens that were pushed before are left out: an error
drops them. -/
def tokenizeLoop : Option Char → List Char → List Char → Except String (List ShellToken)
  | some _, _, [] => .error unterminatedQuote
  | none, current, [] => .ok (pushWord current)
  | some quote, current, char :: rest =>
    if char = quote then tokenizeLoop none current rest
    else if quote = '"' && char = '`' then .error commandSubstitution
    else if quote = '"' && char = '$' && rest.head? = some '(' then .error commandSubstitution
    else if char = '\\' then
      match rest with
      | next :: rest => tokenizeLoop (some quote) (current ++ [next]) rest
      | [] => tokenizeLoop (some quote) (current ++ [char]) []
    else tokenizeLoop (some quote) (current ++ [char]) rest
  | none, current, char :: rest =>
    if char = '\'' || char = '"' then tokenizeLoop (some char) current rest
    else if char = '\n' || char = '\r' then .error multiline
    else if char = '`' then .error commandSubstitution
    else if char = '$' && rest.head? = some '(' then .error commandSubstitution
    else if char = '\\' then
      match rest with
      | next :: rest => tokenizeLoop none (current ++ [next]) rest
      | [] => tokenizeLoop none (current ++ [char]) []
    else if isShellWhitespace char then (tokenizeLoop none [] rest).map (pushWord current ++ ·)
    else if char = '&' then
      match rest with
      | '&' :: rest => (tokenizeLoop none [] rest).map (pushWord current ++ .operator .and :: ·)
      | '>' :: rest =>
        (tokenizeLoop none [] rest).map (pushWord current ++ .operator .combined_redirect :: ·)
      | rest => tokenizeLoop none (current ++ [char]) rest
    else if char = '|' then
      match rest with
      | '|' :: rest => (tokenizeLoop none [] rest).map (pushWord current ++ .operator .or :: ·)
      | rest => (tokenizeLoop none [] rest).map (pushWord current ++ .operator .pipe :: ·)
    else if char = ';' then
      (tokenizeLoop none [] rest).map (pushWord current ++ .operator .sequence :: ·)
    else if char = '<' then
      (tokenizeLoop none [] rest).map (pushRedirect current char rest.head? ++ ·)
    else if char = '>' then
      match rest with
      | '>' :: rest =>
        (tokenizeLoop none [] rest).map (pushRedirect current char (some '>') ++ ·)
      | rest => (tokenizeLoop none [] rest).map (pushRedirect current char rest.head? ++ ·)
    else tokenizeLoop none (current ++ [char]) rest

/-- `tokenizeShellCommand`. -/
def tokenizeShellCommand (command : List Char) : Except String (List ShellToken) :=
  tokenizeLoop none [] command

/-! ## Simple commands -/

/-- `ShellSimpleCommand`. -/
structure ShellSimpleCommand where
  executable : List Char
  args : List (List Char)
  deriving DecidableEq, Repr

/-- `isAsciiAlpha`. -/
def isAsciiAlpha (char : Char) : Bool :=
  let code := char.toNat
  (65 ≤ code && code ≤ 90) || (97 ≤ code && code ≤ 122)

/-- `isAsciiDigit`. -/
def isAsciiDigit (char : Char) : Bool :=
  let code := char.toNat
  48 ≤ code && code ≤ 57

/-- `isEnvironmentAssignment`. -/
def isEnvironmentAssignment (value : List Char) : Bool :=
  let equalsIndex := value.idxOf '='
  if equalsIndex = value.length || equalsIndex = 0 then false
  else
    let key := value.take equalsIndex
    key.zipIdx.all fun (char, index) =>
      char = '_' || isAsciiAlpha char || (0 < index && isAsciiDigit char)

/-- `buildSimpleCommand`. -/
def buildSimpleCommand (words : List (List Char)) : Option ShellSimpleCommand :=
  match words.dropWhile isEnvironmentAssignment with
  | [] => none
  | executable :: args => if executable = [] then none else some { executable, args }

/-! ## Capabilities -/

/-- `ShellCommandCapabilities`. -/
structure ShellCommandCapabilities where
  readOnly : Bool := true
  localWrite : Bool := false
  network : Bool := false
  destructive : Bool := false
  protectedTarget : Bool := false
  deriving DecidableEq, Repr

/-- `emptyCapabilities`. -/
def emptyCapabilities : ShellCommandCapabilities := {}

/-- `readOnlyCapabilities`. -/
def readOnlyCapabilities : ShellCommandCapabilities := emptyCapabilities

/-- `unknownCapabilities`. -/
def unknownCapabilities : ShellCommandCapabilities := { emptyCapabilities with readOnly := false }

/-- `localWriteCapabilities`. -/
def localWriteCapabilities : ShellCommandCapabilities :=
  { unknownCapabilities with localWrite := true }

/-- `networkCapabilities`. -/
def networkCapabilities (localWrite : Bool := false) : ShellCommandCapabilities :=
  { unknownCapabilities with network := true, localWrite }

/-- `destructiveCapabilities`. -/
def destructiveCapabilities (network : Bool := false) : ShellCommandCapabilities :=
  { unknownCapabilities with destructive := true, network }

/-- `mergeCapabilities`. -/
def mergeCapabilities (target source : ShellCommandCapabilities) : ShellCommandCapabilities where
  readOnly := target.readOnly && source.readOnly
  localWrite := target.localWrite || source.localWrite
  network := target.network || source.network
  destructive := target.destructive || source.destructive
  protectedTarget := target.protectedTarget || source.protectedTarget

/-! ## Classification -/

/-- `set.has(value)`. -/
def has (set : List String) (value : List Char) : Bool := set.any fun s => value = s.toList

def READ_ONLY_COMMANDS : List String :=
  ["cat", "head", "tail", "wc", "ls", "pwd", "echo", "date", "hostname", "which", "type", "file",
    "rg", "find", "du", "df", "tree"]

def LOCAL_WRITE_COMMANDS : List String :=
  ["mv", "cp", "mkdir", "touch", "chmod", "chown", "tee", "apply_patch"]

def NETWORK_COMMANDS : List String := ["curl", "wget", "ssh", "scp", "rsync"]
def DESTRUCTIVE_COMMANDS : List String := ["rm", "mkfs", "dd", "shutdown", "reboot", "sudo"]

def GIT_READ_SUBCOMMANDS : List String :=
  ["status", "log", "diff", "show", "branch", "rev-parse", "rev-list", "describe"]

def GIT_WRITE_SUBCOMMANDS : List String := ["apply", "checkout", "restore"]
def GIT_NETWORK_SUBCOMMANDS : List String := ["fetch", "pull", "clone"]

def GIT_DESTRUCTIVE_SUBCOMMANDS : List String :=
  ["push", "commit", "merge", "rebase", "reset", "clean", "stash"]

def NPM_READ_SUBCOMMANDS : List String := ["ls", "list", "view", "info", "outdated", "audit"]
def NPM_WRITE_SUBCOMMANDS : List String := ["uninstall", "run", "exec"]
def NPM_NETWORK_SUBCOMMANDS : List String := ["install", "publish"]

/-- `isFindMutationOption`. -/
def isFindMutationOption : List Char → Bool := has ["-delete", "-exec", "-execdir", "-ok", "-okdir"]

/-- `isInPlaceEditOption`. -/
def isInPlaceEditOption (arg : List Char) : Bool :=
  arg = "-i".toList || "-i.".toList.isPrefixOf arg

/-- `isNoEmitOption`. -/
def isNoEmitOption (arg : List Char) : Bool := arg.map Char.toLower = "--noemit".toList

/-- `classifyGitCommand`. -/
def classifyGitCommand (args : List (List Char)) : ShellCommandCapabilities :=
  match args with
  | [] | [] :: _ => unknownCapabilities
  | subcommand :: rest =>
    if has GIT_READ_SUBCOMMANDS subcommand then readOnlyCapabilities
    else if subcommand = "tag".toList &&
        (rest = [] || rest.head? = some "-l".toList || rest.head? = some "--list".toList) then
      readOnlyCapabilities
    else if has GIT_WRITE_SUBCOMMANDS subcommand then localWriteCapabilities
    else if has GIT_NETWORK_SUBCOMMANDS subcommand then networkCapabilities
    else if has GIT_DESTRUCTIVE_SUBCOMMANDS subcommand then
      destructiveCapabilities (subcommand = "push".toList)
    else unknownCapabilities

/-- `classifyNpmCommand`. -/
def classifyNpmCommand (args : List (List Char)) : ShellCommandCapabilities :=
  match args with
  | [] | [] :: _ => unknownCapabilities
  | subcommand :: _ =>
    if has NPM_READ_SUBCOMMANDS subcommand then readOnlyCapabilities
    else if has NPM_WRITE_SUBCOMMANDS subcommand then localWriteCapabilities
    else if has NPM_NETWORK_SUBCOMMANDS subcommand then networkCapabilities true
    else unknownCapabilities

/-- `classifyNpxCommand`. -/
def classifyNpxCommand (args : List (List Char)) : ShellCommandCapabilities :=
  let executable := args[0]?
  let subcommand := args[1]?
  if executable = some "vitest".toList && subcommand.any (has ["run", "list", "--reporter"]) then
    readOnlyCapabilities
  else if executable = some "tsc".toList && args.any isNoEmitOption then readOnlyCapabilities
  else unknownCapabilities

/-- `classifySimpleCommand`. -/
def classifySimpleCommand (command : ShellSimpleCommand) : ShellCommandCapabilities :=
  if command.executable.contains '/' then unknownCapabilities
  else if has READ_ONLY_COMMANDS command.executable then
    if command.executable = "find".toList && command.args.any isFindMutationOption then
      localWriteCapabilities
    else readOnlyCapabilities
  else if has LOCAL_WRITE_COMMANDS command.executable then localWriteCapabilities
  else if has NETWORK_COMMANDS command.executable then networkCapabilities
  else if has DESTRUCTIVE_COMMANDS command.executable then destructiveCapabilities
  else if command.executable = "git".toList then classifyGitCommand command.args
  else if command.executable = "npm".toList then classifyNpmCommand command.args
  else if command.executable = "npx".toList then classifyNpxCommand command.args
  else if has ["pip", "pip3"] command.executable then
    if command.args.head? = some "install".toList then networkCapabilities true
    else unknownCapabilities
  else if has ["sed", "perl"] command.executable then
    if command.args.any isInPlaceEditOption then localWriteCapabilities else unknownCapabilities
  else unknownCapabilities

/-- `collectPotentialPathTokens`. -/
def collectPotentialPathTokens (command : ShellSimpleCommand) : List (List Char) :=
  command.args.filter fun arg => arg ≠ [] && arg.head? ≠ some '-'

/-! ## Analysis -/

/-- `isCommandBoundary`. -/
def isCommandBoundary : ShellOperator → Bool
  | .and | .or | .sequence | .pipe => true
  | _ => false

/-- `isOutputRedirection`. -/
def isOutputRedirection : ShellOperator → Bool
  | .stdout_redirect | .stdout_append | .stderr_redirect | .stderr_append
  | .combined_redirect => true
  | _ => false

/-- `ShellCommandAnalysis`, without the reason for which a command is not supported; and the
redirections that the loop passes over, which the source does not keep. -/
structure ShellCommandAnalysis where
  commands : List ShellSimpleCommand := []
  pathTokens : List (List Char) := []
  capabilities : ShellCommandCapabilities := emptyCapabilities
  redirections : List (ShellOperator × Option (List Char)) := []
  deriving DecidableEq, Repr

/-- `flushCommand`. -/
def flushCommand (currentWords : List (List Char)) (analysis : ShellCommandAnalysis) :
    ShellCommandAnalysis :=
  match buildSimpleCommand currentWords with
  | none => analysis
  | some simpleCommand =>
    { analysis with
      commands := analysis.commands ++ [simpleCommand]
      capabilities := mergeCapabilities analysis.capabilities (classifySimpleCommand simpleCommand)
      pathTokens := analysis.pathTokens ++ collectPotentialPathTokens simpleCommand }

/-- A redirection, with its target when a word follows. -/
def takeRedirection (operator : ShellOperator) (target : Option (List Char))
    (analysis : ShellCommandAnalysis) : ShellCommandAnalysis :=
  { analysis with
    capabilities :=
      if isOutputRedirection operator then
        { analysis.capabilities with readOnly := false, localWrite := true }
      else analysis.capabilities
    pathTokens := analysis.pathTokens ++ target.toList
    redirections := analysis.redirections ++ [(operator, target)] }

/-- The loop of `analyzeShellCommand`. -/
def analyzeLoop : List (List Char) → ShellCommandAnalysis → List ShellToken → ShellCommandAnalysis
  | currentWords, analysis, [] => flushCommand currentWords analysis
  | currentWords, analysis, .word value :: rest =>
    analyzeLoop (currentWords ++ [value]) analysis rest
  | currentWords, analysis, .operator operator :: rest =>
    if isCommandBoundary operator then analyzeLoop [] (flushCommand currentWords analysis) rest
    else
      match rest with
      | .word target :: rest =>
        analyzeLoop currentWords (takeRedirection operator (some target) analysis) rest
      | rest => analyzeLoop currentWords (takeRedirection operator none analysis) rest

/-- `analyzeShellCommand`. -/
def analyzeShellCommand (command : List Char) : Except String ShellCommandAnalysis :=
  (tokenizeShellCommand (Drive.trim command)).map (analyzeLoop [] {})

/-! ## Assessment -/

inductive SandboxMode where
  | read_only
  | workspace_write
  | danger_full_access
  deriving DecidableEq, Repr

inductive ApprovalPolicy where
  | on_request
  | never
  | untrusted
  deriving DecidableEq, Repr

/-- `ExecutionPolicy`, what the assessment reads of it. -/
structure ExecutionPolicy where
  sandboxMode : SandboxMode
  approvalPolicy : ApprovalPolicy
  networkAccess : Bool
  workspaceRoot : String
  protectedPaths : List String
  deriving DecidableEq, Repr

inductive Status where
  | allowed
  | needs_approval
  | denied
  deriving DecidableEq, Repr

/-- `ShellCommandAssessment`. -/
structure ShellCommandAssessment where
  status : Status
  reason : Option String := none
  capabilities : ShellCommandCapabilities
  deriving DecidableEq, Repr

/-- `isPathInsideProtectedRoots`, for a token in a directory. -/
abbrev InsideRoots := List String → String → Option (List Char) → Bool

/-- `targetsProtectedRoot`. -/
def targetsProtectedRoot (inside : InsideRoots) (pathTokens : List (List Char))
    (policy : Option ExecutionPolicy) (cwd : Option String) : Bool :=
  match policy with
  | none => false
  | some policy =>
    if policy.protectedPaths = [] then false
    else
      let effectiveCwd := cwd.getD policy.workspaceRoot
      inside policy.protectedPaths effectiveCwd none ||
        pathTokens.any fun token => inside policy.protectedPaths effectiveCwd (some token)

/-- `assessShellCommand`. -/
def assessShellCommand (inside : InsideRoots) (command : List Char)
    (policy : Option ExecutionPolicy) (cwd : Option String) : ShellCommandAssessment :=
  match analyzeShellCommand command with
  | .error unsupportedReason =>
    { status := .denied, reason := unsupportedReason, capabilities := emptyCapabilities }
  | .ok analysis =>
    let capabilities := analysis.capabilities
    let mutates := capabilities.localWrite || !capabilities.readOnly
    if mutates && targetsProtectedRoot inside analysis.pathTokens policy cwd then
      { status := .denied
        reason := "Shell command would mutate a protected PulSeed source root"
        capabilities := { capabilities with protectedTarget := true } }
    else if capabilities.destructive then
      { status := .denied, reason := "Denied destructive shell command", capabilities }
    else if capabilities.protectedTarget && mutates then
      { status := .denied, reason := "Shell command targets a protected path", capabilities }
    else if capabilities.network && policy.any (!·.networkAccess) then
      { status := .denied, reason := "Network access is disabled for this session", capabilities }
    else if !capabilities.localWrite && !capabilities.network && capabilities.readOnly then
      { status := .allowed, capabilities }
    else if policy.any (·.sandboxMode = .read_only) then
      { status := .denied
        reason := "Read-only sandbox blocks mutating shell commands"
        capabilities }
    else
      let asks := capabilities.localWrite || capabilities.network || !capabilities.readOnly
      match policy with
      | none =>
        { status := if asks then .needs_approval else .allowed
          reason := if asks then some "Shell command requires approval" else none
          capabilities }
      | some policy =>
        let needsApproval := policy.approvalPolicy ≠ .never
        if asks then
          { status := if needsApproval then .needs_approval else .allowed
            reason :=
              if needsApproval then
                some "Shell command requires approval under current execution policy"
              else none
            capabilities }
        else { status := .allowed, capabilities }

/-- `isReadOnlyShellCommand`. -/
def isReadOnlyShellCommand (inside : InsideRoots) (command : List Char) : Bool :=
  let assessment := assessShellCommand inside command none none
  assessment.status = .allowed && assessment.capabilities.readOnly &&
    !assessment.capabilities.localWrite && !assessment.capabilities.network &&
    !assessment.capabilities.destructive && !assessment.capabilities.protectedTarget

end PulSeed.CommandPolicy
