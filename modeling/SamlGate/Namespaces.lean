/-!
The namespaces of the messages that are read.
-/

namespace SamlGate.Namespaces

def signature : String := "http://www.w3.org/2000/09/xmldsig#"

def exclusive : String := "http://www.w3.org/2001/10/xml-exc-c14n#"

def protocol : String := "urn:oasis:names:tc:SAML:2.0:protocol"

def assertion : String := "urn:oasis:names:tc:SAML:2.0:assertion"

def metadata : String := "urn:oasis:names:tc:SAML:2.0:metadata"

end SamlGate.Namespaces
