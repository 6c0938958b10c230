import FluentSql.Connection.Config
import FluentSql.Url.Reader

namespace FluentSql.Connection.Config

/-- The configuration in a URL. Each part is taken from the URL first and decoded after that, and
the slashes before the name are dropped before it is decoded. -/
def ofUrl (t : Text) : Except ConfigFault Config :=
  match Url.read t with
  | .error fault => .error (.badUrl fault.message)
  | .ok (.web scheme) => .error (.unsupportedScheme scheme)
  | .ok (.plain scheme parts) =>
    if supportedDrivers.contains scheme then
      let c : Config := {}
      let charset? := parts.query.bind fun query =>
        (Url.formPairs query).lookup "client_encoding".toList
      .ok
        { driver := scheme
          host := parts.host.getD c.host
          name := Url.percentDecode (parts.path.dropWhile (· == '/'))
          user := Url.percentDecode parts.user
          pass := Url.percentDecode parts.password
          port := parts.port.getD c.port
          charset := charset?.getD c.charset }
    else .error (.unsupportedScheme scheme)

end FluentSql.Connection.Config
