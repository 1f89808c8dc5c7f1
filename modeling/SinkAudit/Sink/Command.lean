import SinkAudit.Sink.Basic

/-! # Calls that run commands

The methods of the process module, and how they take their command. -/
namespace SinkAudit.Catalog

/-- Methods that start processes. -/
def command : Catalog :=
  [{ matcher := "exec"
     vulnerability := "command-injection"
     dangerous := true
     safeAlternatives := ["execFile", "spawn"]
     sample :=
       { before := "exec(`git clone $\x7brepoUrl\x7d`)"
         after := "execFile('git', ['clone', repoUrl], \x7bshell: false\x7d)" }
     effort := "15-25 minutes"
     riskTier := "critical"
     remediation :=
       ["Replace exec() with execFile() or spawn()",
        "Split command and arguments into separate array elements",
        "Use \x7bshell: false\x7d option to prevent shell interpretation"] },
   { matcher := "execSync"
     vulnerability := "command-injection"
     dangerous := true
     safeAlternatives := ["execFileSync", "spawnSync"]
     sample :=
       { before := "execSync(`npm install $\x7bpackageName\x7d`)"
         after := "execFileSync('npm', ['install', packageName], \x7bshell: false\x7d)" }
     effort := "15-25 minutes"
     riskTier := "critical"
     remediation :=
       ["Replace execSync() with execFileSync() or spawnSync()",
        "Split command and arguments into separate array elements",
        "Use \x7bshell: false\x7d option to prevent shell interpretation"] },
   { matcher := "spawn"
     vulnerability := "argument-injection"
     dangerous := false
     safeAlternatives := ["spawn with validation"]
     sample :=
       { before := "spawn('bash', ['-c', userCommand])"
         after := "spawn(validatedCommand, validatedArgs, \x7bshell: false\x7d)" }
     effort := "20-30 minutes"
     riskTier := "high"
     remediation :=
       ["Ensure first argument is a safe, validated command path",
        "Pass arguments as separate array elements",
        "Use \x7bshell: false\x7d to prevent shell injection"] },
   { matcher := "spawnSync"
     vulnerability := "argument-injection"
     dangerous := false
     safeAlternatives := ["spawnSync with validation"]
     sample :=
       { before := "spawnSync('sh', ['-c', userCommand])"
         after := "spawnSync(validatedCommand, validatedArgs, \x7bshell: false\x7d)" }
     effort := "20-30 minutes"
     riskTier := "high" },
   { matcher := "execFile"
     vulnerability := "path-injection"
     dangerous := false
     safeAlternatives := ["execFile with an allow-listed binary path"]
     sample :=
       { before := "execFile(userBinary, args)"
         after := "execFile(ALLOWED_BINARIES[name], args)" }
     effort := "10-20 minutes"
     riskTier := "medium" },
   { matcher := "execFileSync"
     vulnerability := "path-injection"
     dangerous := false
     safeAlternatives := ["execFileSync with an allow-listed binary path"]
     sample :=
       { before := "execFileSync(userBinary, args)"
         after := "execFileSync(ALLOWED_BINARIES[name], args)" }
     effort := "10-20 minutes"
     riskTier := "medium" },
   { matcher := "fork"
     vulnerability := "path-injection"
     dangerous := false
     safeAlternatives := ["fork with a static module path"]
     sample :=
       { before := "fork(userModule)"
         after := "fork(path.join(__dirname, 'worker.js'))" }
     effort := "10-20 minutes"
     riskTier := "medium" }]

/-- The methods looked for, before configured ones are added. -/
def commandMethods : List String :=
  ["exec", "execSync", "execFile", "execFileSync", "spawn", "spawnSync", "fork", "forkSync"]

/-- Methods that take the command as one text. -/
def textMethods : List String := ["exec", "execSync"]

/-- Methods that take the command and its arguments apart. -/
def listMethods : List String :=
  ["execFile", "execFileSync", "fork", "forkSync", "spawn", "spawnSync"]

end SinkAudit.Catalog
