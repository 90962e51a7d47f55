import Fleet.Text.Base64
import Fleet.Text.Shell

/-!
# The install script

A new instance runs a script when it starts.  The script exports the settings of the
installation, each quoted for the shell, and then installs the server and publishes its progress
as guest attributes.  A body can instead unpack an archive that is embedded in the script.
-/

namespace Fleet

/-- Settings that are written into the script of every new server. -/
structure InstallSettings where
  containerImage : String := ""
  metricsUrl : String := ""
  sentryApiUrl : Option String := none
  watchtowerRefreshSeconds : Option Int := none
deriving DecidableEq, Repr, Inhabited

namespace Install

/-- The settings as variables of the script, in the order in which they are exported. -/
def settingVariables (settings : InstallSettings) : List (String × Option String) :=
  [("SB_IMAGE", some settings.containerImage),
    ("WATCHTOWER_REFRESH_SECONDS",
      (settings.watchtowerRefreshSeconds.filter (· != 0)).map toString),
    ("SENTRY_API_URL", settings.sentryApiUrl),
    ("SB_METRICS_URL", some settings.metricsUrl)]

/-- The variables that are exported: of the settings those that are not empty, and always the
name of the server and the choice of metrics. -/
def exports (settings : InstallSettings) (serverName : String) (metrics : Bool) :
    List (String × String) :=
  (settingVariables settings).filterMap (fun (name, value) =>
      (value.filter (! ·.isEmpty)).map fun value => (name, value)) ++
    [("SB_DEFAULT_SERVER_NAME", serverName),
      ("SB_METRICS_ENABLED", if metrics then "true" else "false")]

/-- The line that exports one variable. -/
def exportLine (name value : String) : String :=
  "export " ++ name ++ "=" ++ Text.Shell.quote value ++ "\n"

/-- The lines that export the settings. -/
def exportCommands (settings : InstallSettings) (serverName : String) (metrics : Bool) : String :=
  String.join ((exports settings serverName metrics).map fun (name, value) =>
    exportLine name value)

/-! ## §2 Bodies -/

/-- The lines of the body that downloads and runs the installer. -/
def bodyLines : List String := [
  "",
  "readonly GUEST_ATTRIBUTES_URL=\"http://metadata.google.internal/computeMetadata/v1/instance/guest-attributes/outline\"",
  "",
  "function cloud::set_guest_attribute() \x7b",
  "  curl --silent --show-error --fail -X PUT --data \"$2\" \\",
  "    -H \"Metadata-Flavor: Google\" \"$\x7bGUEST_ATTRIBUTES_URL\x7d/$1\"",
  "\x7d",
  "",
  "function cloud::on_error() \x7b",
  "  cloud::set_guest_attribute \"install-error\" \"true\"",
  "\x7d",
  "trap cloud::on_error ERR",
  "",
  "cloud::set_guest_attribute \"install-started\" \"true\"",
  "",
  "export SHADOWBOX_DIR=\"$\x7bSHADOWBOX_DIR:-/opt/outline\x7d\"",
  "mkdir -p \"$\x7bSHADOWBOX_DIR\x7d\"",
  "",
  "curl --silent --show-error --fail https://get.docker.com | sh",
  "curl --silent --show-error --fail \\",
  "  https://raw.githubusercontent.com/Jigsaw-Code/outline-apps/master/server_manager/install_scripts/install_server.sh \\",
  "  | bash -s -- --hostname \"$(curl --silent -H 'Metadata-Flavor: Google' \\",
  "      http://metadata.google.internal/computeMetadata/v1/instance/network-interfaces/0/access-configs/0/external-ip)\"",
  "",
  "readonly ACCESS_CONFIG=\"$\x7bSHADOWBOX_DIR\x7d/access.txt\"",
  "cloud::set_guest_attribute \"certSha256\" \\",
  "  \"$(grep 'certSha256:' \"$\x7bACCESS_CONFIG\x7d\" | sed 's/certSha256://' | tr -d '\\n' | base64 -w 0)\"",
  "cloud::set_guest_attribute \"apiUrl\" \"$(grep 'apiUrl:' \"$\x7bACCESS_CONFIG\x7d\" | sed 's/apiUrl://')\"",
  ""]

/-- The body that downloads and runs the installer. -/
def defaultBody : String :=
  String.intercalate "\n" bodyLines

/-- The script that a new instance runs. -/
def script (settings : InstallSettings) (serverName : String) (metrics : Bool)
    (body : String := defaultBody) : String :=
  "#!/bin/bash -eu\n" ++ exportCommands settings serverName metrics ++ body

/-- What is run after unpacking, unless something else is given. -/
def defaultEntrypoint : String := "./install_server.sh"

/-- A body that unpacks the given compressed archive and then runs the entrypoint. -/
def embedTarball (tarball : List UInt8) (entrypoint : String := defaultEntrypoint) : String :=
  "\n(base64 --decode | tar --extract --gzip ) <<EOM\n" ++
    String.ofList (Text.Base64.encode tarball) ++ "\n" ++ "EOM\n" ++ entrypoint ++ "\n"

end Install

end Fleet
