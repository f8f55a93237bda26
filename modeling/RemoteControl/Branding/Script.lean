import RemoteControl.Branding.Sed
import RemoteControl.Passes

/-! # The branding script

`apply-branding.sh` from the bootstrap module (section 2b) to the build anchor (section 4.6):
for each file of the tree what is done to it, in the order of the script. Each entry of
`script` ends with a write to its file and the checks that follow.

`Pinned` says what the unbranded tree and the bootstrap module hold, as far as the script
looks at it: the lines it patches, and nothing else that one of its patterns would find.
-/

namespace RemoteControl.Branding

open Passes (Pass)
open RustStrings (quote)

structure Env where
  rendezvousServer : List Char
  rsPubKey : List Char
  apiServer : List Char
  brandAppName : List Char
  brandOrg : List Char
  brandAndroidAppId : List Char
  brandMacosBundleId : List Char
  brandCopyright : List Char
  updateCheckUrl : List Char
  brandFleetUser : List Char
  brandFleetPassword : List Char
  releaseTag : List Char := []

def upstreamServer : Line := chars "rs-ny.rustdesk.com"

def upstreamKey : Line := chars "OeVuKk5nlHiXp+APNn0Y3pC1Iwpwn44JGqrQCsWqmBw="

namespace Env

def identifier (first other : Char → Bool) : List Char → Bool
  | [] => false
  | c :: rest => first c && rest.all other

/-- Identifiers with dots between them, two at least -/
def dotted (first other : Char → Bool) (text : List Char) : Bool :=
  let parts := text.splitOn '.'
  2 ≤ parts.length && parts.all (identifier first other)

/-- The checks before anything is written -/
def accepted (env : Env) : Bool :=
  [env.rendezvousServer, env.rsPubKey, env.apiServer, env.brandCopyright,
    env.updateCheckUrl].all (· ≠ []) &&
  identifier Char.isAlpha Char.isAlphanum env.brandAppName &&
  dotted Char.isLower (fun c => c.isLower || c.isDigit) env.brandOrg &&
  dotted Char.isLower (fun c => c.isLower || c.isDigit) env.brandAndroidAppId &&
  dotted Char.isAlpha (fun c => c.isAlphanum || c = '-') env.brandMacosBundleId &&
  env.rsPubKey ≠ upstreamKey &&
  2 ≤ env.brandFleetUser.length && 4 ≤ env.brandFleetPassword.length

/-- `${API_SERVER%/}` -/
def fleetApiBase (env : Env) : List Char :=
  if env.apiServer.getLast? = some '/' then env.apiServer.dropLast else env.apiServer

/-- What `tr` makes of the name -/
def appNameLower (env : Env) : List Char := env.brandAppName.map Char.toLower

end Env

inductive File where
  | configRs
  | commonRs
  | serverRs
  | androidGradle
  | androidManifest
  | macosXcconfig
  | winRunnerRc
  | hbbLibRs
  | updaterRs
  deriving DecidableEq

abbrev Tree := File → List Line

/-- A text of the script as `sed` reads it -/
def literal (raw : List Char) : Line := (readReplacement raw).toOption.getD []

/-- A substitution of the script: `s|pattern|front${VALUE}back|` -/
structure Rewrite where
  pattern : Pattern
  front : List Char
  value : Env → List Char
  back : List Char
  frontReads : readReplacement front = .ok (literal front) := by decide
  backReads : readReplacement back = .ok (literal back) := by decide

namespace Rewrite

def command (env : Env) (r : Rewrite) : Command where
  pattern := r.pattern
  replacement := r.front ++ sedEscape (r.value env) ++ r.back

/-- What it puts in place of the pattern, where `sed` reads it without trouble -/
def text (env : Env) (r : Rewrite) : Line := literal (r.command env).replacement

end Rewrite

/-- `"value"` -/
def quoted (value : List Char) : List Char := quote :: value ++ [quote]

/-- `sed -i` and the checks after it -/
def patch (sed : Sed) (env : Env) (rewrites : List Rewrite) (check : List Line → Bool)
    (lines : List Line) : Option (List Line) :=
  (sedInPlace sed (rewrites.map (Rewrite.command env)) lines).filter check

/-- `SERVER_START_ALL_ORIG`, the line before the call and the lines behind it -/
def startAllFront : List Line :=
  [chars "        #[cfg(feature = \"hwcodec\")]",
    chars "        scrap::hwcodec::start_check_process();"]

def startAllBack : List Line :=
  [chars "        crate::RendezvousMediator::start_all().await;", chars "    \x7d else \x7b"]

def bootstrapCall : Line := chars "        fleet_register_bootstrap();"

def bootstrapFn : Line := chars "pub(crate) fn fleet_register_bootstrap() \x7b"

def contains (lines : List Line) (word : Line) : Bool := lines.any fun line => decide (word <:+: line)

/-- `_apply_once` for the call -/
def insertCall (lines : List Line) : Option (List Line) :=
  if contains lines (chars "fleet_register_bootstrap();") then some lines
  else
    (cut (startAllFront ++ startAllBack) lines).map fun (before, after) =>
      before ++ (startAllFront ++ bootstrapCall :: startAllBack) ++ after

def fleetApiBaseConst : Line := chars "pub(crate) const FLEET_API_BASE: &str = "
def fleetUserConst : Line := chars "pub(crate) const FLEET_USER: &str = "
def fleetPasswordConst : Line := chars "pub(crate) const FLEET_PASSWORD: &str = "
def fleetBrandConst : Line := chars "pub(crate) const FLEET_BRAND: &str = "
def fleetVersionConst : Line := chars "pub(crate) const FLEET_VERSION: &str = "

/-- The line of a constant, with its literal between quotation marks -/
def constLine (front value : Line) : Line := front ++ quoted value ++ [';']

def rdcApiBase : Line := chars "__RDC_API_BASE__"
def rdcFleetUser : Line := chars "__RDC_FLEET_USER__"
def rdcFleetPassword : Line := chars "__RDC_FLEET_PASSWORD__"
def rdcBrandAppName : Line := chars "__RDC_BRAND_APP_NAME__"
def rdcReleaseTag : Line := chars "__RDC_RELEASE_TAG__"

def fleetConsts : List Line :=
  [ constLine fleetApiBaseConst rdcApiBase, constLine fleetUserConst rdcFleetUser,
    constLine fleetPasswordConst rdcFleetPassword, constLine fleetBrandConst rdcBrandAppName,
    constLine fleetVersionConst rdcReleaseTag ]

/-- `SERVER_MODULE`: the comment, the constants, and the code from its first function on -/
structure Module where
  comment : List Line
  body : List Line

def Module.lines (m : Module) : List Line :=
  m.comment ++ fleetConsts ++ [] :: bootstrapFn :: m.body

/-- `content.rstrip()` -/
def rstrip (lines : List Line) : List Line :=
  match lines.rdropWhile (·.all Char.isWhitespace) with
  | [] => [[]]
  | first :: rest =>
      (first :: rest).dropLast ++
        [((first :: rest).getLast (List.cons_ne_nil first rest)).rdropWhile Char.isWhitespace]

def appendModule (m : Module) (lines : List Line) : Option (List Line) :=
  if contains lines (chars "fn fleet_register_bootstrap()") then some lines
  else some (rstrip lines ++ [] :: m.lines)

/-- What the script puts in place of each placeholder -/
def placeholders : List (Line × (Env → List Char)) :=
  [ (rdcApiBase, Env.fleetApiBase), (rdcFleetUser, Env.brandFleetUser),
    (rdcFleetPassword, Env.brandFleetPassword), (rdcBrandAppName, Env.brandAppName),
    (rdcReleaseTag, Env.releaseTag) ]

def sentinel (placeholder : Line) (value : Env → List Char) : Rewrite :=
  .mk (.text (quoted placeholder)) (chars "\"") value (chars "\"")

def sentinels : List Rewrite := placeholders.map fun (placeholder, value) => sentinel placeholder value

def patchSentinels (sed : Sed) (env : Env) : List Line → Option (List Line) :=
  patch sed env sentinels fun lines =>
    grep (quoted env.fleetApiBase) lines && grep (quoted env.brandFleetUser) lines &&
      grep (quoted env.brandFleetPassword) lines

def rendezvousFront : Line := chars "pub const RENDEZVOUS_SERVERS: &[&str] = &["
def rsPubKeyFront : Line := chars "pub const RS_PUB_KEY: &str = "
def orgFront : Line := chars "    pub static ref ORG: RwLock<String> = "
def appNameFront : Line := chars "    pub static ref APP_NAME: RwLock<String> = "

def rendezvousLine (value : Line) : Line := rendezvousFront ++ quoted value ++ chars "];"
def rsPubKeyLine (value : Line) : Line := rsPubKeyFront ++ quoted value ++ chars ";"

/-- `RwLock::new("value".to_owned())` -/
def rwLock (value : Line) : Line := chars "RwLock::new(" ++ quoted value ++ chars ".to_owned())"

def orgLine (value : Line) : Line := orgFront ++ rwLock value ++ chars ";"
def appNameLine (value : Line) : Line := appNameFront ++ rwLock value ++ chars ";"

def rendezvousRewrite : Rewrite :=
  .mk (.text (chars "&[" ++ quoted upstreamServer ++ chars "]")) (chars "\\&[\"") Env.rendezvousServer
    (chars "\"]")

def rsPubKeyRewrite : Rewrite := .mk (.text (quoted upstreamKey)) (chars "\"") Env.rsPubKey (chars "\"")

def endpoints : List Rewrite := [rendezvousRewrite, rsPubKeyRewrite]

def patchEndpoints (sed : Sed) (env : Env) : List Line → Option (List Line) :=
  patch sed env endpoints fun lines =>
    grep (quoted env.rendezvousServer) lines && grep (quoted env.rsPubKey) lines &&
      !(grep upstreamServer lines || grep upstreamKey lines)

def identity : List Rewrite :=
  [ .mk (.text (rwLock (chars "RustDesk"))) (chars "RwLock::new(\"") Env.brandAppName
    (chars "\".to_owned())"),
    .mk (.text (rwLock (chars "com.carriez"))) (chars "RwLock::new(\"") Env.brandOrg
      (chars "\".to_owned())") ]

def patchIdentity (sed : Sed) (env : Env) : List Line → Option (List Line) :=
  patch sed env identity fun lines =>
    grep (rwLock env.brandAppName) lines && grep (rwLock env.brandOrg) lines

def anchorName : Line := chars "_RDC_BUILD_INFO_ANCHOR"

def anchorStatic : Line := chars "static _RDC_BUILD_INFO_ANCHOR: [&str; 4] = ["

/-- A value of the anchor, as a raw string -/
def rawLine (value : List Char) : List Char := chars "    r" ++ quoted value ++ chars ","

def anchorComment : List Line :=
  [ chars "", chars "// ── Branded build anchor (added by client/scripts/apply-branding.sh) ─────",
    chars "// Keeps the four hardcoded endpoints resident through LTO so post-build",
    chars "// verification (client/scripts/verify-hardcoded.sh) can locate them.",
    chars "// The fleet user/password are NOT in the anchor on purpose — they live",
    chars "// in src/server.rs, which is referenced by start_server, so LTO has no",
    chars "// reason to strip them.", chars "#[used]" ]

def anchorValues (env : Env) : List (List Char) :=
  [env.rendezvousServer, env.rsPubKey, env.apiServer, env.brandAppName]

/-- The here-document. A value with a line break takes several lines. -/
def anchorLines (env : Env) : List Line :=
  anchorComment ++ anchorStatic ::
    ((anchorValues env).flatMap (fun value => (rawLine value).splitOn '\n') ++ [chars "];"])

def appendAnchor (env : Env) (lines : List Line) : Option (List Line) :=
  if contains lines anchorName then some lines else some (lines ++ anchorLines env)

def apiLine (value : Line) : Line := chars "    " ++ quoted value ++ chars ".to_owned()"

def upstreamApi : Line := chars "https://admin.rustdesk.com"

def apiRewrite : Rewrite :=
  .mk (.text (quoted upstreamApi ++ chars ".to_owned()")) (chars "\"") Env.apiServer
    (chars "\".to_owned()")

def apiFallback : List Rewrite := [apiRewrite]

def patchApi (sed : Sed) (env : Env) : List Line → Option (List Line) :=
  patch sed env apiFallback (grep (quoted env.apiServer ++ chars ".to_owned()"))

def applicationId (value : Line) : Line := chars "applicationId " ++ quoted value

def gradle : List Rewrite :=
  [ .mk (.text (applicationId (chars "com.carriez.flutter_hbb"))) (chars "applicationId \"")
      Env.brandAndroidAppId (chars "\"") ]

def patchGradle (sed : Sed) (env : Env) : List Line → Option (List Line) :=
  patch sed env gradle (grep (applicationId env.brandAndroidAppId))

def androidLabel (value : Line) : Line := chars "android:label=" ++ quoted value

def manifest : List Rewrite :=
  [ .mk (.text (androidLabel (chars "RustDesk Input"))) (chars "android:label=\"") Env.brandAppName
      (chars " Input\""),
    .mk (.text (androidLabel (chars "RustDesk"))) (chars "android:label=\"") Env.brandAppName
      (chars "\"") ]

def patchManifest (sed : Sed) (env : Env) : List Line → Option (List Line) :=
  patch sed env manifest (grep (androidLabel env.brandAppName))

/-- `grep -qE` for the line of a setting. A dot of the value stands for any character. -/
def grepSetting (key value : Line) (lines : List Line) : Bool :=
  lines.any fun line =>
    match settingOf key line with
    | none => false
    | some given =>
        let given := given.dropWhile (· = ' ')
        given.length = value.length && (given.zip value).all fun (c, d) => d = '.' || c = d

def productName : Line := chars "PRODUCT_NAME"
def productBundle : Line := chars "PRODUCT_BUNDLE_IDENTIFIER"
def productCopyright : Line := chars "PRODUCT_COPYRIGHT"

def xcconfig : List Rewrite :=
  [ .mk (.setting productName (some (chars "RustDesk"))) (chars "PRODUCT_NAME = ") Env.brandAppName
    (chars ""),
    .mk (.setting productBundle (some (chars "com.carriez.flutterHbb")))
      (chars "PRODUCT_BUNDLE_IDENTIFIER = ")
      Env.brandMacosBundleId (chars ""),
    .mk (.setting productCopyright none) (chars "PRODUCT_COPYRIGHT = ") Env.brandCopyright (chars "") ]

def patchXcconfig (sed : Sed) (env : Env) : List Line → Option (List Line) :=
  patch sed env xcconfig fun lines =>
    grepSetting productName env.brandAppName lines && grepSetting productBundle env.brandMacosBundleId lines

/-- The text before the value of an entry in the version resource -/
def versionFront (key : Line) : Line :=
  chars "VALUE " ++ quoted key ++ chars ", "

def versionEntry (key : Line) (value : Line) : Line := versionFront key ++ quoted value

def versionInfo : List Rewrite :=
  [ .mk (.text (versionEntry (chars "CompanyName") (chars "Purslane Ltd")))
      (chars "VALUE \"CompanyName\", \"") Env.brandOrg (chars "\""),
    .mk (.text (versionEntry (chars "FileDescription") (chars "RustDesk Remote Desktop")))
      (chars "VALUE \"FileDescription\", \"") Env.brandAppName (chars " Remote Desktop\""),
    .mk (.text (versionEntry (chars "InternalName") (chars "rustdesk")))
      (chars "VALUE \"InternalName\", \"") Env.appNameLower (chars "\""),
    .mk (.quoted (versionFront (chars "LegalCopyright") ++ [quote]))
      (chars "VALUE \"LegalCopyright\", \"")
      Env.brandCopyright (chars "\""),
    .mk (.text (versionEntry (chars "OriginalFilename") (chars "rustdesk.exe")))
      (chars "VALUE \"OriginalFilename\", \"") Env.brandAppName (chars ".exe\""),
    .mk (.text (versionEntry (chars "ProductName") (chars "RustDesk")))
      (chars "VALUE \"ProductName\", \"") Env.brandAppName (chars "\"") ]

def patchRunnerRc (sed : Sed) (env : Env) : List Line → Option (List Line) :=
  patch sed env versionInfo fun lines =>
    grep (quoted (chars "FileDescription") ++ chars ", " ++
      quoted (env.brandAppName ++ chars " Remote Desktop")) lines &&
    grep (quoted (chars "ProductName") ++ chars ", " ++ quoted env.brandAppName) lines

def upstreamUpdateUrl : Line := chars "https://api.rustdesk.com/version/latest"

def updateUrl : List Rewrite :=
  [.mk (.text (quoted upstreamUpdateUrl)) (chars "\"") Env.updateCheckUrl (chars "\"")]

def patchUpdateUrl (sed : Sed) (env : Env) : List Line → Option (List Line) :=
  patch sed env updateUrl (grep (quoted env.updateCheckUrl))

def msiNames : List Rewrite :=
  [ .mk (.text (quoted (chars "\x7b\x7d/rustdesk-\x7b\x7d-x86_64.\x7b\x7d")))
      (chars "\"\\\x7b\\\x7d/") Env.brandAppName (chars "-\\\x7b\\\x7d-x86_64.\\\x7b\\\x7d\""),
    .mk (.text (quoted (chars "\x7b\x7d/rustdesk-\x7b\x7d-x86-sciter.exe")))
      (chars "\"\\\x7b\\\x7d/") Env.brandAppName (chars "-\\\x7b\\\x7d-x86-sciter.exe\"") ]

def patchUpdater (sed : Sed) (env : Env) : List Line → Option (List Line) :=
  patch sed env msiNames (grep (env.brandAppName ++ chars "-\x7b\x7d-x86_64"))

def script (sed : Sed) (m : Module) (env : Env) : List (Pass File (List Line)) :=
  [ ⟨.serverRs, insertCall⟩, ⟨.serverRs, appendModule m⟩, ⟨.configRs, patchEndpoints sed env⟩,
    ⟨.commonRs, patchApi sed env⟩, ⟨.configRs, patchIdentity sed env⟩,
    ⟨.androidGradle, patchGradle sed env⟩, ⟨.androidManifest, patchManifest sed env⟩,
    ⟨.macosXcconfig, patchXcconfig sed env⟩, ⟨.winRunnerRc, patchRunnerRc sed env⟩,
    ⟨.hbbLibRs, patchUpdateUrl sed env⟩, ⟨.updaterRs, patchUpdater sed env⟩,
    ⟨.serverRs, patchSentinels sed env⟩, ⟨.configRs, appendAnchor env⟩ ]

/-- The tree after the script, when it ends with success -/
def applyBranding (sed : Sed) (m : Module) (env : Env) (tree : Tree) : Option Tree :=
  if env.accepted then Passes.run (script sed m env) tree else none

/-- The substitutions of the script in a file -/
def rewritesOf : File → List Rewrite
  | .configRs => endpoints ++ identity
  | .commonRs => apiFallback
  | .serverRs => sentinels
  | .androidGradle => gradle
  | .androidManifest => manifest
  | .macosXcconfig => xcconfig
  | .winRunnerRc => versionInfo
  | .hbbLibRs => updateUrl
  | .updaterRs => msiNames

/-- The lines that the script rewrites: those of the unbranded tree, and in `server.rs` those
    of the bootstrap module -/
def sites : File → List Line
  | .configRs =>
      [ rendezvousLine upstreamServer, rsPubKeyLine upstreamKey, orgLine (chars "com.carriez"),
        appNameLine (chars "RustDesk") ]
  | .commonRs => [apiLine upstreamApi]
  | .serverRs => fleetConsts
  | .androidGradle => [chars "        applicationId \"com.carriez.flutter_hbb\""]
  | .androidManifest =>
      [chars "        android:label=\"RustDesk\"", chars "            android:label=\"RustDesk Input\""]
  | .macosXcconfig =>
      [ chars "PRODUCT_NAME = RustDesk", chars "PRODUCT_BUNDLE_IDENTIFIER = com.carriez.flutterHbb",
        chars "PRODUCT_COPYRIGHT = Copyright © 2025 Purslane Ltd. All rights reserved." ]
  | .winRunnerRc =>
      [ (chars "CompanyName", chars "Purslane Ltd"),
        (chars "FileDescription", chars "RustDesk Remote Desktop"),
        (chars "InternalName", chars "rustdesk"),
        (chars "LegalCopyright", chars "Copyright © 2025 Purslane Ltd. All rights reserved."),
        (chars "OriginalFilename", chars "rustdesk.exe"),
          (chars "ProductName", chars "RustDesk") ].map fun (key, value) =>
        chars "            " ++ versionEntry key value ++ chars " \"\\0\""
  | .hbbLibRs => [chars "    const URL: &str = \"https://api.rustdesk.com/version/latest\";"]
  | .updaterRs =>
      [ chars "                \"\x7b\x7d/rustdesk-\x7b\x7d-x86_64.\x7b\x7d\",",
        chars "            format!(\"\x7b\x7d/rustdesk-\x7b\x7d-x86-sciter.exe\", download_url, version)" ]

/-- No substitution of the file finds its pattern in the line. -/
def Untouched (file : File) (line : Line) : Prop := ∀ r ∈ rewritesOf file, r.pattern.find line = none

instance (file : File) : DecidablePred (Untouched file) := fun _ => List.decidableBAll _ _

def bootstrapName : Line := chars "fleet_register_bootstrap"

def constFront : Line := chars "pub(crate) const FLEET_"

/-- What the unbranded tree and the bootstrap module are promised to hold -/
structure Pinned (m : Module) (tree : Tree) : Prop where
  lines : ∀ file, ∀ line ∈ tree file, line ∈ sites file ∨ Untouched file line
  present : ∀ file, file ≠ .serverRs → ∀ line ∈ sites file, line ∈ tree file
  moduleLines : ∀ line ∈ m.comment ++ m.body, Untouched .serverRs line
  noBootstrap : ∀ line ∈ tree .serverRs ++ (m.comment ++ m.body), ¬bootstrapName <:+: line
  noConst : ∀ line ∈ tree .serverRs ++ (m.comment ++ m.body), ¬constFront <+: line
  noAnchor : ∀ line ∈ tree .configRs, ¬anchorName <:+: line

/-- A tree with the lines that the script looks for, and no others -/
def smallTree : Tree
  | .serverRs => startAllFront ++ startAllBack
  | file => sites file

def smallModule : Module where
  comment := [chars "// fleet_register"]
  body := [chars "\x7d"]

theorem pinned_small : Pinned smallModule smallTree where
  lines := by
    intro file
    cases file <;> decide
  present := by
    intro file other
    cases file with
    | serverRs => exact absurd rfl other
    | _ => exact fun line member => member
  moduleLines := by decide
  noBootstrap := by decide +kernel
  noConst := by decide
  noAnchor := by decide +kernel

def smallEnv : Env where
  rendezvousServer := chars "rdv.example.com"
  rsPubKey := chars "a2V5"
  apiServer := chars "https://api.example.com/"
  brandAppName := chars "RemoteControl"
  brandOrg := chars "com.example"
  brandAndroidAppId := chars "com.example.remotecontrol"
  brandMacosBundleId := chars "com.example.remotecontrol"
  brandCopyright := chars "Copyright (c) 2026 Example SA"
  updateCheckUrl := chars "https://owner.github.io/repo/version/latest.json"
  brandFleetUser := chars "fleet"
  brandFleetPassword := chars "pass|word&more"
  releaseTag := chars "v0.0.25"

theorem small_succeeds :
    (applyBranding (fun _ _ => none) smallModule smallEnv smallTree).isSome = true := by
  decide +kernel

end RemoteControl.Branding
