import SamlGate.Certificate.Der

/-!
Descriptors, the short names of object identifiers.

A descriptor stands for an identifier where people read it. Of the names that standards give to an
identifier the shortest is its descriptor, in capitals. Identifiers are compared by their octets, so one
with an arc that is not written in the shortest way has none.
-/

namespace SamlGate.Certificate

/-- Descriptors of identifiers that share all arcs but the last. -/
structure Family where
  root : List Nat
  members : List (Nat × String)

def directoryFamilies : List Family :=
  [⟨[1, 3, 6, 1, 1], [(4, "VENDORNAME"), (5, "VENDORVERSION"), (20, "ENTRYDN")]⟩,
   ⟨[1, 3, 6, 1, 1, 3], [(1, "UIDOBJECT")]⟩,
   ⟨[1, 3, 6, 1, 1, 15],
     [(2, "COMPONENTFILTERMATCH"), (3, "RDNMATCH"), (5, "PRESENTMATCH"), (6, "ALLCOMPONENTSMATCH"),
      (7, "DIRECTORYCOMPONENTSMATCH")]⟩,
   ⟨[1, 3, 6, 1, 1, 16], [(2, "UUIDMATCH"), (3, "UUIDORDERINGMATCH"), (4, "ENTRYUUID")]⟩,
   ⟨[1, 3, 6, 1, 1, 23], [(1, "JIDOBJECT"), (2, "JID")]⟩,
   ⟨[1, 3, 6, 1, 4, 1, 1466], [(344, "DCOBJECT"), (345, "DOMAINNAMEFORM")]⟩,
   ⟨[1, 3, 6, 1, 4, 1, 1466, 101, 119], [(2, "DYNAMICOBJECT"), (3, "ENTRYTTL"), (4, "DYNAMICSUBTREES")]⟩,
   ⟨[1, 3, 6, 1, 4, 1, 1466, 101, 120],
     [(5, "NAMINGCONTEXTS"), (6, "ALTSERVER"), (7, "SUPPORTEDEXTENSION"), (13, "SUPPORTEDCONTROL"),
      (14, "SUPPORTEDSASLMECHANISMS"), (15, "SUPPORTEDLDAPVERSION"), (16, "LDAPSYNTAXES"),
      (111, "EXTENSIBLEOBJECT")]⟩,
   ⟨[1, 3, 6, 1, 4, 1, 1466, 109, 114],
     [(1, "CASEEXACTIA5MATCH"), (2, "CASEIGNOREIA5MATCH"), (3, "CASEIGNOREIA5SUBSTRINGSMATCH")]⟩,
   ⟨[1, 3, 6, 1, 4, 1, 4203, 1, 3], [(5, "SUPPORTEDFEATURES")]⟩,
   ⟨[2, 5, 4],
     [(0, "OBJECTCLASS"), (1, "ALIASEDOBJECTNAME"), (2, "KNOWLEDGEINFORMATION"), (3, "CN"), (4, "SN"),
      (5, "SERIALNUMBER"), (6, "C"), (7, "L"), (8, "ST"), (9, "STREET"), (10, "O"), (11, "OU"),
      (12, "TITLE"), (13, "DESCRIPTION"), (14, "SEARCHGUIDE"), (15, "BUSINESSCATEGORY"),
      (16, "POSTALADDRESS"), (17, "POSTALCODE"), (18, "POSTOFFICEBOX"), (19, "PHYSICALDELIVERYOFFICENAME"),
      (20, "TELEPHONENUMBER"), (21, "TELEXNUMBER"), (22, "TELETEXTERMINALIDENTIFIER"),
      (23, "FACSIMILETELEPHONENUMBER"), (24, "X121ADDRESS"), (25, "INTERNATIONALISDNNUMBER"),
      (26, "REGISTEREDADDRESS"), (27, "DESTINATIONINDICATOR"), (28, "PREFERREDDELIVERYMETHOD"),
      (29, "PRESENTATIONADDRESS"), (30, "SUPPORTEDAPPLICATIONCONTEXT"), (31, "MEMBER"), (32, "OWNER"),
      (33, "ROLEOCCUPANT"), (34, "SEEALSO"), (35, "USERPASSWORD"), (36, "USERCERTIFICATE"),
      (37, "CACERTIFICATE"), (38, "AUTHORITYREVOCATIONLIST"), (39, "CERTIFICATEREVOCATIONLIST"),
      (40, "CROSSCERTIFICATEPAIR"), (41, "NAME"), (42, "GIVENNAME"), (43, "INITIALS"),
      (44, "GENERATIONQUALIFIER"), (45, "X500UNIQUEIDENTIFIER"), (46, "DNQUALIFIER"),
      (47, "ENHANCEDSEARCHGUIDE"), (48, "PROTOCOLINFORMATION"), (49, "DISTINGUISHEDNAME"),
      (50, "UNIQUEMEMBER"), (51, "HOUSEIDENTIFIER"), (52, "SUPPORTEDALGORITHMS"),
      (53, "DELTAREVOCATIONLIST"), (54, "DMDNAME"), (55, "ID-AT-CLEARANCE"), (65, "PSEUDONYM"),
      (72, "ID-AT-ROLE")]⟩,
   ⟨[2, 5, 4, 7], [(1, "C-L")]⟩,
   ⟨[2, 5, 4, 8], [(1, "C-ST")]⟩,
   ⟨[2, 5, 4, 9], [(1, "C-STREET")]⟩,
   ⟨[2, 5, 4, 10], [(1, "C-O")]⟩,
   ⟨[2, 5, 4, 11], [(1, "C-OU")]⟩,
   ⟨[2, 5, 4, 16], [(1, "C-POSTALADDRESS")]⟩,
   ⟨[2, 5, 4, 17], [(1, "C-POSTALCODE")]⟩,
   ⟨[2, 5, 4, 18], [(1, "C-POSTOFFICEBOX")]⟩,
   ⟨[2, 5, 4, 19], [(1, "C-PHYSICALDELIVERYOFFICENAME")]⟩,
   ⟨[2, 5, 4, 20], [(1, "C-TELEPHONENUMBER")]⟩,
   ⟨[2, 5, 4, 21], [(1, "C-TELEXNUMBER")]⟩,
   ⟨[2, 5, 4, 23], [(1, "C-FACSIMILETELEPHONENUMBER")]⟩,
   ⟨[2, 5, 4, 25], [(1, "C-INTERNATIONALISDNNUMBER")]⟩,
   ⟨[2, 5, 6],
     [(0, "TOP"), (1, "ALIAS"), (2, "COUNTRY"), (3, "LOCALITY"), (4, "ORGANIZATION"),
      (5, "ORGANIZATIONALUNIT"), (6, "PERSON"), (7, "ORGANIZATIONALPERSON"), (8, "ORGANIZATIONALROLE"),
      (9, "GROUPOFNAMES"), (10, "RESIDENTIALPERSON"), (11, "APPLICATIONPROCESS"), (12, "APPLICATIONENTITY"),
      (13, "DSA"), (14, "DEVICE"), (15, "STRONGAUTHENTICATIONUSER"), (16, "CERTIFICATIONAUTHORITY"),
      (17, "GROUPOFUNIQUENAMES"), (18, "USERSECURITYINFORMATION"), (19, "CRLDISTRIBUTIONPOINT"),
      (20, "DMD"), (21, "PKIUSER"), (22, "PKICA"), (23, "DELTACRL")]⟩,
   ⟨[2, 5, 6, 16], [(2, "CERTIFICATIONAUTHORITY-V2")]⟩,
   ⟨[2, 5, 13],
     [(0, "OBJECTIDENTIFIERMATCH"), (1, "DISTINGUISHEDNAMEMATCH"), (2, "CASEIGNOREMATCH"),
      (3, "CASEIGNOREORDERINGMATCH"), (4, "CASEIGNORESUBSTRINGSMATCH"), (5, "CASEEXACTMATCH"),
      (6, "CASEEXACTORDERINGMATCH"), (7, "CASEEXACTSUBSTRINGSMATCH"), (8, "NUMERICSTRINGMATCH"),
      (9, "NUMERICSTRINGORDERINGMATCH"), (10, "NUMERICSTRINGSUBSTRINGSMATCH"), (11, "CASEIGNORELISTMATCH"),
      (12, "CASEIGNORELISTSUBSTRINGSMATCH"), (13, "BOOLEANMATCH"), (14, "INTEGERMATCH"),
      (15, "INTEGERORDERINGMATCH"), (16, "BITSTRINGMATCH"), (17, "OCTETSTRINGMATCH"),
      (18, "OCTETSTRINGORDERINGMATCH"), (20, "TELEPHONENUMBERMATCH"),
      (21, "TELEPHONENUMBERSUBSTRINGSMATCH"), (22, "PRESENTATIONADDRESSMATCH"), (23, "UNIQUEMEMBERMATCH"),
      (24, "PROTOCOLINFORMATIONMATCH"), (27, "GENERALIZEDTIMEMATCH"), (28, "GENERALIZEDTIMEORDERINGMATCH"),
      (29, "INTEGERFIRSTCOMPONENTMATCH"), (30, "OBJECTIDENTIFIERFIRSTCOMPONENTMATCH"),
      (31, "DIRECTORYSTRINGFIRSTCOMPONENTMATCH"), (32, "WORDMATCH"), (33, "KEYWORDMATCH"),
      (34, "CERTIFICATEEXACTMATCH"), (35, "CERTIFICATEMATCH"), (36, "CERTIFICATEPAIREXACTMATCH"),
      (37, "CERTIFICATEPAIRMATCH"), (38, "CERTIFICATELISTEXACTMATCH"), (39, "CERTIFICATELISTMATCH"),
      (40, "ALGORITHMIDENTIFIERMATCH"), (41, "STOREDPREFIXMATCH")]⟩,
   ⟨[2, 5, 17], [(0, "SUBENTRY"), (2, "COLLECTIVEATTRIBUTESUBENTRY")]⟩,
   ⟨[2, 5, 18],
     [(1, "CREATETIMESTAMP"), (2, "MODIFYTIMESTAMP"), (3, "CREATORSNAME"), (4, "MODIFIERSNAME"),
      (5, "ADMINISTRATIVEROLE"), (6, "SUBTREESPECIFICATION"), (7, "COLLECTIVEEXCLUSIONS"),
      (10, "SUBSCHEMASUBENTRY"), (12, "COLLECTIVEATTRIBUTESUBENTRIES")]⟩,
   ⟨[2, 5, 20], [(1, "SUBSCHEMA")]⟩,
   ⟨[2, 5, 21],
     [(1, "DITSTRUCTURERULES"), (2, "DITCONTENTRULES"), (4, "MATCHINGRULES"), (5, "ATTRIBUTETYPES"),
      (6, "OBJECTCLASSES"), (7, "NAMEFORMS"), (8, "MATCHINGRULEUSE"), (9, "STRUCTURALOBJECTCLASS"),
      (10, "GOVERNINGSTRUCTURERULE")]⟩,
   ⟨[2, 5, 23],
     [(1, "AUTONOMOUSAREA"), (2, "ACCESSCONTROLSPECIFICAREA"), (3, "ACCESSCONTROLINNERAREA"),
      (4, "SUBSCHEMAADMINSPECIFICAREA"), (5, "COLLECTIVEATTRIBUTESPECIFICAREA"),
      (6, "COLLECTIVEATTRIBUTEINNERAREA")]⟩]

def personFamilies : List Family :=
  [⟨[0, 9, 2342, 19200300, 100, 1],
     [(1, "UID"), (2, "TEXTENCODEDORADDRESS"), (3, "MAIL"), (4, "INFO"), (5, "DRINK"), (6, "ROOMNUMBER"),
      (7, "PHOTO"), (8, "USERCLASS"), (9, "HOST"), (10, "MANAGER"), (11, "DOCUMENTIDENTIFIER"),
      (12, "DOCUMENTTITLE"), (13, "DOCUMENTVERSION"), (14, "DOCUMENTAUTHOR"), (15, "DOCUMENTLOCATION"),
      (20, "HOMEPHONE"), (21, "SECRETARY"), (22, "OTHERMAILBOX"), (23, "LASTMODIFIEDTIME"),
      (24, "LASTMODIFIEDBY"), (25, "DC"), (26, "ARECORD"), (27, "MDRECORD"), (28, "MXRECORD"),
      (29, "NSRECORD"), (30, "SOARECORD"), (31, "CNAMERECORD"), (37, "ASSOCIATEDDOMAIN"),
      (38, "ASSOCIATEDNAME"), (39, "HOMEPOSTALADDRESS"), (40, "PERSONALTITLE"), (41, "MOBILE"),
      (42, "PAGER"), (43, "CO"), (44, "UNIQUEIDENTIFIER"), (45, "ORGANIZATIONALSTATUS"),
      (46, "JANETMAILBOX"), (47, "MAILPREFERENCEOPTION"), (48, "BUILDINGNAME"), (49, "DSAQUALITY"),
      (50, "SINGLELEVELQUALITY"), (51, "SUBTREEMINIMUMQUALITY"), (52, "SUBTREEMAXIMUMQUALITY"),
      (53, "PERSONALSIGNATURE"), (54, "DITREDIRECT"), (55, "AUDIO"), (56, "DOCUMENTPUBLISHER"),
      (60, "JPEGPHOTO")]⟩,
   ⟨[0, 9, 2342, 19200300, 100, 4],
     [(3, "PILOTOBJECT"), (4, "PILOTPERSON"), (5, "ACCOUNT"), (6, "DOCUMENT"), (7, "ROOM"),
      (9, "DOCUMENTSERIES"), (13, "DOMAIN"), (14, "RFC822LOCALPART"), (15, "DNSDOMAIN"),
      (17, "DOMAINRELATEDOBJECT"), (18, "FRIENDLYCOUNTRY"), (19, "SIMPLESECURITYOBJECT"),
      (20, "PILOTORGANIZATION"), (21, "PILOTDSA"), (22, "QUALITYLABELLEDDATA")]⟩,
   ⟨[1, 2, 840, 113556, 1, 4],
     [(478, "CALCALURI"), (479, "CALFBURL"), (480, "CALCAPURI"), (481, "CALCALADRURI"),
      (482, "CALOTHERCALURIS"), (483, "CALOTHERFBURLS"), (484, "CALOTHERCAPURIS"),
      (485, "CALOTHERCALADRURIS")]⟩,
   ⟨[1, 2, 840, 113556, 1, 5], [(87, "CALENTRY")]⟩,
   ⟨[1, 3, 6, 1, 4, 1, 250, 1], [(57, "LABELEDURI")]⟩,
   ⟨[1, 3, 6, 1, 4, 1, 250, 3], [(1, "LABELEDURIOBJECT")]⟩,
   ⟨[1, 3, 6, 1, 4, 1, 453, 7, 2],
     [(3, "ASSOCIATEDX400GATEWAY"), (6, "ASSOCIATEDORADDRESS"), (7, "ORADDRESSCOMPONENTTYPE"),
      (8, "ASSOCIATEDINTERNETGATEWAY"), (9, "MCGAMTABLES")]⟩,
   ⟨[2, 16, 840, 1, 113730, 3, 1],
     [(1, "CARLICENSE"), (2, "DEPARTMENTNUMBER"), (3, "EMPLOYEENUMBER"), (4, "EMPLOYEETYPE"), (34, "REF"),
      (39, "PREFERREDLANGUAGE"), (40, "USERSMIMECERTIFICATE"), (216, "USERPKCS12"), (241, "DISPLAYNAME")]⟩,
   ⟨[2, 16, 840, 1, 113730, 3, 2], [(2, "INETORGPERSON"), (6, "REFERRAL")]⟩]

def certificateFamilies : List Family :=
  [⟨[1, 2, 840, 10040], [(2, "HOLDINSTRUCTION")]⟩,
   ⟨[1, 2, 840, 10040, 2],
     [(1, "ID-HOLDINSTRUCTION-NONE"), (2, "ID-HOLDINSTRUCTION-CALLISSUER"),
      (3, "ID-HOLDINSTRUCTION-REJECT")]⟩,
   ⟨[1, 3, 6, 1, 4, 1, 11129, 2, 4],
     [(2, "CT-PRECERT-SCTS"), (3, "CT-PRECERT-POISON"), (4, "CT-PRECERT-SIGNING-CERT")]⟩,
   ⟨[1, 3, 6, 1, 5, 5], [(7, "ID-PKIX")]⟩,
   ⟨[1, 3, 6, 1, 5, 5, 7],
     [(0, "ID-MOD"), (1, "ID-PE"), (2, "ID-QT"), (3, "ID-KP"), (4, "ID-IT"), (5, "ID-PKIP"), (6, "ID-ALG"),
      (7, "ID-CMC"), (8, "ID-ON"), (9, "ID-PDA"), (10, "ID-ACA"), (11, "ID-QCS"), (12, "ID-CCT"),
      (13, "ID-TEST"), (14, "ID-CP"), (15, "ID-CET"), (16, "ID-RI"), (17, "ID-STC"), (18, "ID-SWB"),
      (19, "ID-SVP"), (20, "ID-LOGO"), (21, "ID-PPL"), (22, "ID-MR"), (23, "ID-SKIS"), (24, "ID-SCEP"),
      (48, "ID-AD")]⟩,
   ⟨[1, 3, 6, 1, 5, 5, 7, 1],
     [(1, "ID-PE-AUTHORITYINFOACCESS"), (4, "ID-PE-AC-AUDITIDENTITY"), (6, "ID-PE-AACONTROLS"),
      (10, "ID-PE-AC-PROXYING"), (11, "ID-PE-SUBJECTINFOACCESS")]⟩,
   ⟨[1, 3, 6, 1, 5, 5, 7, 2], [(1, "ID-QT-CPS"), (2, "ID-QT-UNOTICE")]⟩,
   ⟨[1, 3, 6, 1, 5, 5, 7, 3],
     [(1, "ID-KP-SERVERAUTH"), (2, "ID-KP-CLIENTAUTH"), (3, "ID-KP-CODESIGNING"),
      (4, "ID-KP-EMAILPROTECTION"), (8, "ID-KP-TIMESTAMPING"), (9, "ID-KP-OCSPSIGNING"),
      (15, "ID-KP-SCVPSERVER"), (16, "ID-KP-SCVPCLIENT")]⟩,
   ⟨[1, 3, 6, 1, 5, 5, 7, 5], [(1, "ID-REGCTRL"), (2, "ID-REGINFO")]⟩,
   ⟨[1, 3, 6, 1, 5, 5, 7, 5, 1],
     [(1, "ID-REGCTRL-REGTOKEN"), (2, "ID-REGCTRL-AUTHENTICATOR"), (3, "ID-REGCTRL-PKIPUBLICATIONINFO"),
      (4, "ID-REGCTRL-PKIARCHIVEOPTIONS"), (5, "ID-REGCTRL-OLDCERTID"), (6, "ID-REGCTRL-PROTOCOLENCRKEY")]⟩,
   ⟨[1, 3, 6, 1, 5, 5, 7, 5, 2], [(1, "ID-REGINFO-UTF8PAIRS"), (2, "ID-REGINFO-CERTREQ")]⟩,
   ⟨[1, 3, 6, 1, 5, 5, 7, 6], [(2, "ID-ALG-NOSIGNATURE")]⟩,
   ⟨[1, 3, 6, 1, 5, 5, 7, 7],
     [(1, "ID-CMC-STATUSINFO"), (2, "ID-CMC-IDENTIFICATION"), (3, "ID-CMC-IDENTITYPROOF"),
      (4, "ID-CMC-DATARETURN"), (5, "ID-CMC-TRANSACTIONID"), (6, "ID-CMC-SENDERNONCE"),
      (7, "ID-CMC-RECIPIENTNONCE"), (8, "ID-CMC-ADDEXTENSIONS"), (9, "ID-CMC-ENCRYPTEDPOP"),
      (10, "ID-CMC-DECRYPTEDPOP"), (11, "ID-CMC-LRAPOPWITNESS"), (15, "ID-CMC-GETCERT"),
      (16, "ID-CMC-GETCRL"), (17, "ID-CMC-REVOKEREQUEST"), (18, "ID-CMC-REGINFO"),
      (19, "ID-CMC-RESPONSEINFO"), (21, "ID-CMC-QUERYPENDING"), (22, "ID-CMC-POPLINKRANDOM"),
      (23, "ID-CMC-POPLINKWITNESS"), (24, "ID-CMC-CONFIRMCERTACCEPTANCE"), (25, "ID-CMC-STATUSINFOV2"),
      (26, "ID-CMC-TRUSTEDANCHORS"), (27, "ID-CMC-AUTHDATA"), (28, "ID-CMC-BATCHREQUESTS"),
      (29, "ID-CMC-BATCHRESPONSES"), (30, "ID-CMC-PUBLISHCERT"), (31, "ID-CMC-MODCERTTEMPLATE"),
      (32, "ID-CMC-CONTROLPROCESSED"), (33, "ID-CMC-POPLINKWITNESSV2"), (34, "ID-CMC-IDENTITYPROOFV2")]⟩,
   ⟨[1, 3, 6, 1, 5, 5, 7, 10],
     [(1, "ID-ACA-AUTHENTICATIONINFO"), (2, "ID-ACA-ACCESSIDENTITY"), (3, "ID-ACA-CHARGINGIDENTITY"),
      (4, "ID-ACA-GROUP"), (6, "ID-ACA-ENCATTRS")]⟩,
   ⟨[1, 3, 6, 1, 5, 5, 7, 12], [(2, "ID-CCT-PKIDATA"), (3, "ID-CCT-PKIRESPONSE")]⟩,
   ⟨[1, 3, 6, 1, 5, 5, 7, 17],
     [(1, "ID-STC-BUILD-PKC-PATH"), (2, "ID-STC-BUILD-VALID-PKC-PATH"),
      (3, "ID-STC-BUILD-STATUS-CHECKED-PKC-PATH"), (4, "ID-STC-BUILD-AA-PATH"),
      (5, "ID-STC-BUILD-VALID-AA-PATH"), (6, "ID-STC-BUILD-STATUS-CHECKED-AA-PATH"),
      (7, "ID-STC-STATUS-CHECK-AC-AND-BUILD-STATUS-CHECKED-AA-PATH")]⟩,
   ⟨[1, 3, 6, 1, 5, 5, 7, 18],
     [(1, "ID-SWB-PKC-BEST-CERT-PATH"), (2, "ID-SWB-PKC-REVOCATION-INFO"),
      (4, "ID-SWB-PKC-PUBLIC-KEY-INFO"), (5, "ID-SWB-AA-CERT-PATH"), (6, "ID-SWB-AA-REVOCATION-INFO"),
      (7, "ID-SWB-AC-REVOCATION-INFO"), (9, "ID-SWB-RELAYED-RESPONSES"), (10, "ID-SWB-PKC-CERT"),
      (11, "ID-SWB-AC-CERT"), (12, "ID-SWB-PKC-ALL-CERT-PATHS"), (13, "ID-SWB-PKC-EE-REVOCATION-INFO"),
      (14, "ID-SWB-PKC-CAS-REVOCATION-INFO")]⟩,
   ⟨[1, 3, 6, 1, 5, 5, 7, 19], [(1, "ID-SVP-DEFAULTVALPOLICY")]⟩,
   ⟨[1, 3, 6, 1, 5, 5, 7, 24], [(1, "ID-SCEP-FAILINFOTEXT")]⟩,
   ⟨[1, 3, 6, 1, 5, 5, 7, 48],
     [(1, "ID-AD-OCSP"), (2, "ID-AD-CAISSUERS"), (3, "ID-AD-TIMESTAMPING"), (5, "ID-AD-CAREPOSITORY")]⟩,
   ⟨[1, 3, 6, 1, 5, 5, 7, 48, 1],
     [(1, "ID-PKIX-OCSP-BASIC"), (2, "ID-PKIX-OCSP-NONCE"), (3, "ID-PKIX-OCSP-CRL"),
      (4, "ID-PKIX-OCSP-RESPONSE"), (5, "ID-PKIX-OCSP-NOCHECK"), (6, "ID-PKIX-OCSP-ARCHIVE-CUTOFF"),
      (7, "ID-PKIX-OCSP-SERVICE-LOCATOR"), (8, "ID-PKIX-OCSP-PREF-SIG-ALGS"),
      (9, "ID-PKIX-OCSP-EXTENDED-REVOKE")]⟩,
   ⟨[2, 5, 29],
     [(9, "ID-CE-SUBJECTDIRECTORYATTRIBUTES"), (14, "ID-CE-SUBJECTKEYIDENTIFIER"), (15, "ID-CE-KEYUSAGE"),
      (16, "ID-CE-PRIVATEKEYUSAGEPERIOD"), (17, "ID-CE-SUBJECTALTNAME"), (18, "ID-CE-ISSUERALTNAME"),
      (19, "ID-CE-BASICCONSTRAINTS"), (20, "ID-CE-CRLNUMBER"), (21, "ID-CE-CRLREASONS"),
      (23, "ID-CE-HOLDINSTRUCTIONCODE"), (24, "ID-CE-INVALIDITYDATE"), (27, "ID-CE-DELTACRLINDICATOR"),
      (28, "ID-CE-ISSUINGDISTRIBUTIONPOINT"), (29, "ID-CE-CERTIFICATEISSUER"),
      (30, "ID-CE-NAMECONSTRAINTS"), (31, "ID-CE-CRLDISTRIBUTIONPOINTS"), (32, "ID-CE-CERTIFICATEPOLICIES"),
      (33, "ID-CE-POLICYMAPPINGS"), (35, "ID-CE-AUTHORITYKEYIDENTIFIER"), (36, "ID-CE-POLICYCONSTRAINTS"),
      (37, "ID-CE-EXTKEYUSAGE"), (46, "ID-CE-FRESHESTCRL"), (54, "ID-CE-INHIBITANYPOLICY"),
      (55, "ID-CE-TARGETINFORMATION")]⟩,
   ⟨[2, 5, 29, 32], [(0, "ANYPOLICY")]⟩,
   ⟨[2, 5, 29, 37], [(0, "ANYEXTENDEDKEYUSAGE")]⟩,
   ⟨[2, 16, 840, 1, 113733, 1, 9],
     [(2, "ID-MESSAGETYPE"), (3, "ID-PKISTATUS"), (4, "ID-FAILINFO"), (5, "ID-SENDERNONCE"),
      (6, "ID-RECIPIENTNONCE"), (7, "ID-TRANSACTIONID")]⟩]

def messageFamilies : List Family :=
  [⟨[1, 2, 840, 113549, 1], [(1, "PKCS-1"), (9, "PKCS-9")]⟩,
   ⟨[1, 2, 840, 113549, 1, 7],
     [(1, "ID-DATA"), (2, "ID-SIGNEDDATA"), (3, "ID-ENVELOPEDDATA"), (5, "ID-DIGESTEDDATA"),
      (6, "ID-ENCRYPTEDDATA")]⟩,
   ⟨[1, 2, 840, 113549, 1, 9],
     [(1, "EMAIL"), (3, "ID-CONTENTTYPE"), (4, "ID-MESSAGEDIGEST"), (5, "ID-SIGNINGTIME"),
      (6, "ID-COUNTERSIGNATURE"), (14, "ID-EXTENSIONREQ"), (15, "SMIMECAPABILITIES"), (16, "ID-SMIME")]⟩,
   ⟨[1, 2, 840, 113549, 1, 9, 16],
     [(0, "ID-MOD"), (1, "ID-CT"), (2, "ID-AA"), (3, "ID-ALG"), (4, "ID-CD"), (5, "ID-SPQ"), (6, "ID-CTI"),
      (7, "ID-TSP"), (8, "ID-SKD"), (9, "ID-STI"), (10, "ID-EIT"), (11, "ID-CAP"), (12, "ID-PSKC")]⟩,
   ⟨[1, 2, 840, 113549, 1, 9, 16, 1],
     [(1, "ID-CT-RECEIPT"), (2, "ID-CT-AUTHDATA"), (6, "ID-CT-CONTENTINFO"), (9, "ID-CT-COMPRESSEDDATA"),
      (10, "ID-CT-SCVP-CERTVALREQUEST"), (11, "ID-CT-SCVP-CERTVALRESPONSE"),
      (12, "ID-CT-SCVP-VALPOLREQUEST"), (13, "ID-CT-SCVP-VALPOLRESPONSE"), (16, "ID-CT-FIRMWAREPACKAGE"),
      (17, "ID-CT-FIRMWARELOADRECEIPT"), (18, "ID-CT-FIRMWARELOADERROR"), (19, "ID-CT-CONTENTCOLLECTION"),
      (20, "ID-CT-CONTENTWITHATTRS"), (21, "ID-CT-ENCKEYWITHID"), (23, "ID-CT-AUTHENVELOPEDDATA")]⟩,
   ⟨[1, 2, 840, 113549, 1, 9, 16, 2],
     [(1, "ID-AA-RECEIPTREQUEST"), (2, "ID-AA-SECURITYLABEL"), (3, "ID-AA-MLEXPANDHISTORY"),
      (4, "ID-AA-CONTENTHINT"), (5, "ID-AA-MSGSIGDIGEST"), (7, "ID-AA-CONTENTIDENTIFIER"),
      (9, "ID-AA-EQUIVALENTLABELS"), (10, "ID-AA-CONTENTREFERENCE"), (11, "ID-AA-ENCRYPKEYPREF"),
      (12, "ID-AA-SIGNINGCERTIFICATE"), (34, "ID-AA-CMC-UNSIGNEDDATA"), (35, "ID-AA-FIRMWAREPACKAGEID"),
      (36, "ID-AA-TARGETHARDWAREIDS"), (37, "ID-AA-DECRYPTKEYID"), (38, "ID-AA-IMPLCRYPTOALGS"),
      (39, "ID-AA-WRAPPEDFIRMWAREKEY"), (40, "ID-AA-COMMUNITYIDENTIFIERS"),
      (41, "ID-AA-FIRMWAREPACKAGEINFO"), (42, "ID-AA-IMPLCOMPRESSALGS"),
      (47, "ID-AA-SIGNINGCERTIFICATEV2")]⟩,
   ⟨[1, 2, 840, 113549, 1, 9, 16, 3],
     [(5, "ID-ALG-ESDH"), (6, "ID-ALG-CMS3DESWRAP"), (7, "ID-ALG-CMSRC2WRAP"), (8, "ID-ALG-ZLIBCOMPRESS"),
      (9, "ID-ALG-PWRI-KEK"), (10, "ID-ALG-SSDH")]⟩]

def algorithmFamilies : List Family :=
  [⟨[1, 2, 840, 10040, 4], [(1, "ID-DSA"), (3, "DSA-WITH-SHA1")]⟩,
   ⟨[1, 2, 840, 10045, 2], [(1, "ID-ECPUBLICKEY")]⟩,
   ⟨[1, 2, 840, 10045, 3, 1], [(1, "SECP192R1"), (7, "SECP256R1")]⟩,
   ⟨[1, 2, 840, 10045, 4], [(1, "ECDSA-WITH-SHA1")]⟩,
   ⟨[1, 2, 840, 10045, 4, 3],
     [(1, "ECDSA-WITH-SHA224"), (2, "ECDSA-WITH-SHA256"), (3, "ECDSA-WITH-SHA384"),
      (4, "ECDSA-WITH-SHA512")]⟩,
   ⟨[1, 2, 840, 10046, 2], [(1, "DHPUBLICNUMBER")]⟩,
   ⟨[1, 2, 840, 113533, 7, 66], [(13, "ID-PASSWORDBASEDMAC"), (30, "ID-DHBASEDMAC")]⟩,
   ⟨[1, 2, 840, 113549, 1, 1],
     [(1, "RSAENCRYPTION"), (2, "MD2WITHRSAENCRYPTION"), (4, "MD5WITHRSAENCRYPTION"),
      (5, "SHA1WITHRSAENCRYPTION"), (7, "ID-RSAES-OAEP"), (8, "ID-MGF1"), (9, "ID-PSPECIFIED"),
      (10, "ID-RSASSA-PSS"), (11, "SHA256WITHRSAENCRYPTION"), (12, "SHA384WITHRSAENCRYPTION"),
      (13, "SHA512WITHRSAENCRYPTION"), (14, "SHA224WITHRSAENCRYPTION")]⟩,
   ⟨[1, 2, 840, 113549, 1, 5], [(12, "ID-PBKDF2")]⟩,
   ⟨[1, 2, 840, 113549, 2], [(2, "ID-MD2"), (5, "ID-MD5")]⟩,
   ⟨[1, 2, 840, 113549, 3], [(2, "RC2-CBC"), (7, "DES-EDE3-CBC")]⟩,
   ⟨[1, 3, 6, 1, 5, 5, 8, 1], [(2, "HMAC-SHA1")]⟩,
   ⟨[1, 3, 14, 3, 2], [(26, "ID-SHA1")]⟩,
   ⟨[1, 3, 101], [(110, "ID-X25519"), (111, "ID-X448"), (112, "ID-ED25519"), (113, "ID-ED448")]⟩,
   ⟨[1, 3, 132, 0],
     [(1, "SECT163K1"), (15, "SECT163R2"), (16, "SECT283K1"), (17, "SECT283R1"), (26, "SECT233K1"),
      (27, "SECT233R1"), (33, "SECP224R1"), (34, "SECP384R1"), (35, "SECP521R1"), (36, "SECT409K1"),
      (37, "SECT409R1"), (38, "SECT571K1"), (39, "SECT571R1")]⟩,
   ⟨[1, 3, 132, 1], [(12, "ID-ECDH"), (13, "ID-ECMQV")]⟩,
   ⟨[2, 16, 840, 1, 101, 2, 1, 1], [(22, "ID-KEYEXCHANGEALGORITHM")]⟩,
   ⟨[2, 16, 840, 1, 101, 3, 4], [(1, "AES")]⟩,
   ⟨[2, 16, 840, 1, 101, 3, 4, 1],
     [(2, "ID-AES128-CBC"), (5, "ID-AES128-WRAP"), (6, "ID-AES128-GCM"), (7, "ID-AES128-CCM"),
      (22, "ID-AES192-CBC"), (25, "ID-AES192-WRAP"), (26, "ID-AES192-GCM"), (27, "ID-AES192-CCM"),
      (42, "ID-AES256-CBC"), (45, "ID-AES256-WRAP"), (46, "ID-AES256-GCM"), (47, "ID-AES256-CCM")]⟩,
   ⟨[2, 16, 840, 1, 101, 3, 4, 2],
     [(1, "ID-SHA256"), (2, "ID-SHA384"), (3, "ID-SHA512"), (4, "ID-SHA224"), (7, "ID-SHA3-224"),
      (8, "ID-SHA3-256"), (9, "ID-SHA3-384"), (10, "ID-SHA3-512"), (11, "ID-SHAKE128"),
      (12, "ID-SHAKE256")]⟩,
   ⟨[2, 16, 840, 1, 101, 3, 4, 3], [(1, "DSA-WITH-SHA224"), (2, "DSA-WITH-SHA256")]⟩]

def Family.entries (family : Family) : List (Octets × String) :=
  family.members.map (fun member => (Der.ofArcs (family.root ++ [member.1]), member.2))

def descriptors : List (Octets × String) :=
  (directoryFamilies ++ personFamilies ++ certificateFamilies ++ messageFamilies
    ++ algorithmFamilies).flatMap Family.entries

def descriptor? (identifier : Octets) : Option String :=
  descriptors.lookup identifier

end SamlGate.Certificate
